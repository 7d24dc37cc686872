import STS2RL.Combat.ManagerLeases
import STS2RL.Core.PyNumber
import Mathlib.Algebra.Order.BigOperators.Group.List

/-!
# The Graph of a Cancel

A cancel goes down the registered links from a branch to its children, and the
same links are taken away again: a released branch that leads nowhere leaves the
children of its parent, and its parent may then be such a branch in turn. What
must not happen is that a link goes which a branch still living hangs on.

The reason it does not is in what a step may do with links (`Relinks`). A branch
that is released stays so, no link is added, and a link goes only when the
branch under it is released and has no children left. Above a living branch that
is never the case: it is no released leaf, so its parent has children, so its
parent is no leaf either, and so on up to the branch it was submitted under
first. A submission adds a link, and it may be one above which links are gone
already; under a parent that is not released it is not.

## Main definitions

* `Prunes`: The loop that prunes, without a bound on its rounds.
* `Relinks`: What a step may do with links.
* `Linked`: Every branch that is living or leads on is linked to its parent.
* `GraphRun`: A run that remembers what each branch was submitted under.

## Theorems

* `pruneReleasedLeaf_prunes`: The loop ends.
* `cascade_complete`: A cancel visits every descendant.
* `relinks_step`, `linked_step`: What a step does with links.
* `cascade_graph_sound`: Living branches stay linked to all their ancestors.
-/

namespace STS2RL

namespace Combat

variable {κ β : Type}

/-- A branch that hangs on its link: it is not released, or leads on to children. -/
def BranchRecord.LeadsOn (record : BranchRecord κ β) : Prop :=
  record.state ≠ .released ∨ record.childBranchIds ≠ []

namespace BranchManager

/-! ### The loop that prunes -/

/-- The loop of `_prune_released_leaf_from_parent`, from a branch on: it ends at
    a branch that is no released leaf with a parent, or whose parent is not
    known, or it goes on with the parent. -/
inductive Prunes : BranchManager κ β → String → BranchManager κ β → Prop where
  | stop {manager : BranchManager κ β} {branchId : String}
      (hstop : ∀ current, manager.records.get? branchId = some current →
        ¬ (current.state = .released ∧ current.childBranchIds = [] ∧
          current.parentBranchId ≠ none)) : Prunes manager branchId manager
  | orphan {manager : BranchManager κ β} {branchId parentId : String} {current : BranchRecord κ β}
      (hget : manager.records.get? branchId = some current) (hstate : current.state = .released)
      (hleaf : current.childBranchIds = []) (hparent : current.parentBranchId = some parentId)
      (hunknown : (manager.setRecord branchId { current with parentBranchId := none }).records.get?
        parentId = none) :
      Prunes manager branchId (manager.setRecord branchId { current with parentBranchId := none })
  | detach {manager final : BranchManager κ β} {branchId parentId : String}
      {current parent : BranchRecord κ β} (hget : manager.records.get? branchId = some current)
      (hstate : current.state = .released) (hleaf : current.childBranchIds = [])
      (hparent : current.parentBranchId = some parentId)
      (hknown : (manager.setRecord branchId { current with parentBranchId := none }).records.get?
        parentId = some parent)
      (hrest : Prunes ((manager.setRecord branchId
          { current with parentBranchId := none }).setRecord parentId
            { parent with childBranchIds := parent.childBranchIds.erase branchId })
              parentId final) :
      Prunes manager branchId final

/-- How many branches have a parent. -/
def parentCount (records : BranchRecords κ β) : Nat :=
  records.entries.countP fun entry => entry.2.parentBranchId.isSome

theorem parentCount_le_size (records : BranchRecords κ β) : parentCount records ≤ records.size :=
  List.countP_le_length

theorem parentCount_setRecord {manager : BranchManager κ β} {branchId : String}
    {record : BranchRecord κ β} (record' : BranchRecord κ β)
    (hget : manager.records.get? branchId = some record) :
    parentCount (manager.setRecord branchId record').records +
        (if record.parentBranchId.isSome then 1 else 0) =
      parentCount manager.records + if record'.parentBranchId.isSome then 1 else 0 :=
  Dict.countP_setL (fun entry : String × BranchRecord κ β => entry.2.parentBranchId.isSome) hget

/-- A branch that has a parent is counted. -/
theorem parentCount_pos {records : BranchRecords κ β} {branchId : String}
    {record : BranchRecord κ β} (hget : records.get? branchId = some record)
    (hparent : record.parentBranchId ≠ none) : 0 < parentCount records := by
  refine List.countP_pos_iff.mpr ⟨(branchId, record), (Dict.mem_entries_iff _ _ _).mpr hget, ?_⟩
  exact Option.isSome_iff_ne_none.mpr hparent

/-- The loop ends: every round takes a branch from its parent. -/
theorem pruneReleasedLeaf_prunes (fuel : Nat) :
    ∀ (manager : BranchManager κ β) (branchId : String), parentCount manager.records ≤ fuel →
      Prunes manager branchId (pruneReleasedLeaf fuel manager branchId) := by
  induction fuel with
  | zero =>
      intro manager branchId hcount
      refine .stop fun current hget hloop => ?_
      exact absurd (parentCount_pos hget hloop.2.2) (by omega)
  | succ fuel ih =>
      intro manager branchId hcount
      unfold pruneReleasedLeaf
      rcases hget : manager.records.get? branchId with _ | current
      · exact .stop fun current hget' => by rw [hget] at hget'; cases hget'
      dsimp only
      rcases hparent : current.parentBranchId with _ | parentId
      · refine .stop fun current' hget' hloop => ?_
        rw [hget, Option.some.injEq] at hget'
        rw [← hget'] at hloop
        exact hloop.2.2 hparent
      by_cases hleaf : current.state = .released ∧ current.childBranchIds = []
      · dsimp only
        rw [if_pos hleaf]
        -- The branch is detached, and then there is one parent less.
        have hdetached := parentCount_setRecord { current with parentBranchId := none } hget
        rw [hparent] at hdetached
        rcases hknown : (manager.setRecord branchId
          { current with parentBranchId := none }).records.get? parentId with _ | parent
        · exact .orphan hget hleaf.1 hleaf.2 hparent hknown
        · have hkept := parentCount_setRecord
            { parent with childBranchIds := parent.childBranchIds.erase branchId } hknown
          refine .detach hget hleaf.1 hleaf.2 hparent hknown (ih _ _ ?_)
          simp at hdetached hkept
          omega
      · dsimp only
        rw [if_neg hleaf]
        refine .stop fun current' hget' hloop => hleaf ?_
        rw [hget, Option.some.injEq] at hget'
        rw [hget']
        exact ⟨hloop.1, hloop.2.1⟩

/-! ### The visit of a cancel -/

/-- The links of the branches that are not visited. -/
def linksLeft (records : BranchRecords κ β) (visited : List String) : Nat :=
  ((records.entries.filter fun entry => entry.1 ∉ visited).map
    fun entry => entry.2.childBranchIds.length).sum

/-- Visiting a branch takes its links off those that are left. -/
theorem linksLeft_visit {records : BranchRecords κ β} {visited : List String} {branchId : String}
    {record : BranchRecord κ β} (hget : records.get? branchId = some record)
    (hnew : branchId ∉ visited) :
    linksLeft records (visited ++ [branchId]) + record.childBranchIds.length ≤
      linksLeft records visited := by
  have hmem := (Dict.mem_entries_iff records branchId record).mpr hget
  unfold linksLeft
  generalize records.entries = entries at hmem
  induction entries with
  | nil => cases hmem
  | cons entry rest ih =>
      -- What is left without the branch is at most what was left.
      have hle : ((rest.filter fun entry => entry.1 ∉ visited ++ [branchId]).map
          fun entry => entry.2.childBranchIds.length).sum ≤
          ((rest.filter fun entry => entry.1 ∉ visited).map
            fun entry => entry.2.childBranchIds.length).sum := by
        refine List.Sublist.sum_le_sum (List.Sublist.map _ ?_) fun _ _ => Nat.zero_le _
        refine List.monotone_filter_right _ fun entry hentry => ?_
        simp only [List.mem_append, not_or, decide_eq_true_eq] at hentry ⊢
        exact hentry.1
      rcases List.mem_cons.mp hmem with rfl | hmem
      · simp only [List.filter_cons]
        simp only [List.mem_append, List.mem_singleton, or_true, not_true_eq_false, decide_false,
          Bool.false_eq_true, if_false, hnew, not_false_eq_true, decide_true, if_true,
          List.map_cons, List.sum_cons]
        simp only [List.mem_append, List.mem_singleton] at hle
        omega
      · have hrest := ih hmem
        simp only [List.filter_cons]
        by_cases hvisited : entry.1 ∈ visited
        · simpa [hvisited] using hrest
        · by_cases hsame : entry.1 = branchId
          · simp only [List.mem_append, List.mem_singleton, hsame, or_true, not_true_eq_false,
              decide_false, Bool.false_eq_true, if_false, hnew, not_false_eq_true, decide_true,
              if_true, List.map_cons, List.sum_cons]
            simp only [List.mem_append, List.mem_singleton] at hrest
            omega
          · simp only [List.mem_append, List.mem_singleton, hvisited, hsame, or_self,
              not_false_eq_true, decide_true, if_true, List.map_cons, List.sum_cons]
            simp only [List.mem_append, List.mem_singleton] at hrest
            omega

/-- A cancel visits what it starts from and all their descendants. -/
theorem cascade_complete {records : BranchRecords κ β}
    (hchildren : ∀ branchId childId, Child records branchId childId →
      (records.get? childId).isSome = true) (fuel : Nat) :
    ∀ toVisit visited : List String, toVisit.length + linksLeft records visited < fuel →
      (∀ id ∈ toVisit, (records.get? id).isSome = true) →
      (∀ id ∈ visited, ∀ childId, Child records id childId →
        childId ∈ visited ∨ childId ∈ toVisit) →
      (cascade records fuel toVisit visited).2 = none ∧
        (∀ id, id ∈ visited ∨ id ∈ toVisit → id ∈ (cascade records fuel toVisit visited).1) ∧
        ∀ id ∈ (cascade records fuel toVisit visited).1, ∀ childId, Child records id childId →
          childId ∈ (cascade records fuel toVisit visited).1 := by
  -- The induction is on the fuel. A visit costs one of the branches to visit or one of the links
  -- that are left, so that the fuel is enough for both together.
  induction fuel with
  | zero => exact fun _ _ hfuel => absurd hfuel (Nat.not_lt_zero _)
  | succ fuel ih =>
      intro toVisit visited hfuel hknown hclosed
      rcases toVisit with _ | ⟨branchId, rest⟩
      -- Nothing is left to visit, so the children of what was visited were visited.
      · refine ⟨rfl, fun id hid => hid.resolve_right List.not_mem_nil,
          fun id hid childId hchild => ?_⟩
        exact (hclosed id hid childId hchild).resolve_right List.not_mem_nil
      · rw [List.length_cons] at hfuel
        unfold cascade
        by_cases hvisited : branchId ∈ visited
        -- A branch that was visited is skipped, and its children are seen to already.
        · rw [if_pos hvisited]
          rcases ih rest visited (by omega) (fun id hid => hknown id (.tail _ hid))
            (fun id hid childId hchild => by
              rcases hclosed id hid childId hchild with h | h
              · exact .inl h
              · rcases List.mem_cons.mp h with rfl | h
                · exact .inl hvisited
                · exact .inr h) with ⟨hnone, hreached, hrest⟩
          refine ⟨hnone, fun id hid => hreached id ?_, hrest⟩
          rcases hid with h | h
          · exact .inl h
          · rcases List.mem_cons.mp h with rfl | h
            · exact .inl hvisited
            · exact .inr h
        · rw [if_neg hvisited]
          -- A branch that is new is known, and its children are put in front of the rest.
          rcases Option.isSome_iff_exists.mp (hknown branchId (.head _)) with ⟨record, hget⟩
          rw [hget]
          dsimp only
          -- The links that are left go down by as many as there are children.
          have hlinks := linksLeft_visit hget hvisited
          rcases ih (record.childBranchIds.reverse ++ rest) (visited ++ [branchId])
            (by rw [List.length_append, List.length_reverse]; omega)
            (fun id hid => by
              rcases List.mem_append.mp hid with h | h
              · exact hchildren branchId id ⟨record, hget, List.mem_reverse.mp h⟩
              · exact hknown id (.tail _ h))
            (fun id hid childId hchild => by
              rcases List.mem_append.mp hid with h | h
              -- What was visited before has its children as it had them; the branch itself has
              -- its children among what is to visit.
              · rcases hclosed id h childId hchild with h | h
                · exact .inl (List.mem_append_left _ h)
                · rcases List.mem_cons.mp h with rfl | h
                  · exact .inl (List.mem_append_right _ (.head _))
                  · exact .inr (List.mem_append_right _ h)
              · rw [List.mem_singleton.mp h] at hchild
                rcases hchild with ⟨record', hget', hmem⟩
                rw [hget, Option.some.injEq] at hget'
                rw [← hget'] at hmem
                exact .inr (List.mem_append_left _ (List.mem_reverse.mpr hmem))) with
            ⟨hnone, hreached, hrest⟩
          refine ⟨hnone, fun id hid => hreached id ?_, hrest⟩
          rcases hid with h | h
          · exact .inl (List.mem_append_left _ h)
          · rcases List.mem_cons.mp h with rfl | h
            · exact .inl (List.mem_append_right _ (.head _))
            · exact .inr (List.mem_append_right _ h)

/-- A cancel of known branches is not refused, and reaches every descendant. -/
theorem cancelBranches_reaches {manager : BranchManager κ β}
    (hchildren : ∀ branchId childId, Child manager.records branchId childId →
      (manager.records.get? childId).isSome = true) {branchIds : List String}
    (hknown : ∀ id ∈ branchIds, (manager.records.get? id).isSome = true) :
    (manager.cancelBranches branchIds).2 = .ok () ∧
      ∀ source ∈ branchIds, ∀ id, Descends manager.records source id →
        (manager.cancelBranches branchIds).1.records.get? id =
          (manager.records.get? id).map BranchRecord.cancelled := by
  have hfuel : branchIds.reverse.length + linksLeft manager.records [] <
      cascadeFuel manager.records branchIds := by
    unfold linksLeft cascadeFuel
    simp
  rcases cascade_complete hchildren _ _ [] hfuel (fun id hid => hknown id (List.mem_reverse.mp hid))
    (fun id hid => absurd hid List.not_mem_nil) with ⟨hnone, hreached, hclosed⟩
  unfold cancelBranches
  generalize cascade manager.records (cascadeFuel manager.records branchIds) branchIds.reverse [] =
    visit at hnone hreached hclosed
  rcases visit with ⟨visited, unknown⟩
  dsimp only at hnone hreached hclosed ⊢
  rw [hnone]
  refine ⟨rfl, fun source hsource id hdescends => ?_⟩
  have hvisited : id ∈ visited := by
    induction hdescends with
    | refl => exact hreached source (.inr (List.mem_reverse.mpr hsource))
    | tail _ hchild ih => exact hclosed _ ih _ hchild
  rw [foldl_cancelOne_records, if_pos hvisited]

/-! ### What a step may do with links -/

/-- The branches stay the same, released ones stay released, no link is added,
    and a link goes only above a branch that does not lead on. -/
structure Relinks (manager manager' : BranchManager κ β) : Prop where
  serial : manager'.nextSerial = manager.nextSerial
  known : ∀ id, (manager'.records.get? id).isSome = (manager.records.get? id).isSome
  released : ∀ id record record', manager.records.get? id = some record →
    manager'.records.get? id = some record' → record.state = .released → record'.state = .released
  children : ∀ id record record', manager.records.get? id = some record →
    manager'.records.get? id = some record' → record'.childBranchIds ⊆ record.childBranchIds
  kept : ∀ id record record' childId child, manager.records.get? id = some record →
    manager'.records.get? id = some record' → manager'.records.get? childId = some child →
    child.LeadsOn → childId ∈ record.childBranchIds → childId ∈ record'.childBranchIds

namespace Relinks

theorem refl (manager : BranchManager κ β) : Relinks manager manager := by
  have hsame : ∀ {id : String} {record record' : BranchRecord κ β},
      manager.records.get? id = some record → manager.records.get? id = some record' →
      record = record' := fun h h' => Option.some.inj (h.symm.trans h')
  refine ⟨rfl, fun _ => rfl, ?_, ?_, ?_⟩
  · exact fun _ _ _ hget hget' hstate => hsame hget hget' ▸ hstate
  · exact fun _ _ _ hget hget' => hsame hget hget' ▸ List.Subset.refl _
  · exact fun _ _ _ _ _ hget hget' _ _ hmem => hsame hget hget' ▸ hmem

theorem exists_before {manager manager' : BranchManager κ β} (h : Relinks manager manager')
    {id : String} {record' : BranchRecord κ β} (hget : manager'.records.get? id = some record') :
    ∃ record, manager.records.get? id = some record :=
  Option.isSome_iff_exists.mp (by rw [← h.known, hget]; rfl)

theorem exists_after {manager manager' : BranchManager κ β} (h : Relinks manager manager')
    {id : String} {record : BranchRecord κ β} (hget : manager.records.get? id = some record) :
    ∃ record', manager'.records.get? id = some record' :=
  Option.isSome_iff_exists.mp (by rw [h.known, hget]; rfl)

/-- A branch that leads on did so before. -/
theorem leadsOn {manager manager' : BranchManager κ β} (h : Relinks manager manager') {id : String}
    {record record' : BranchRecord κ β} (hget : manager.records.get? id = some record)
    (hget' : manager'.records.get? id = some record') (hleads : record'.LeadsOn) :
    record.LeadsOn := by
  rcases hleads with hliving | hchildren
  · exact .inl fun hstate => hliving (h.released id record record' hget hget' hstate)
  · refine .inr fun hnil => hchildren ?_
    have hsub := h.children id record record' hget hget'
    rw [hnil] at hsub
    exact List.subset_nil.mp hsub

/-- One relinking after another. -/
theorem trans {manager manager' manager'' : BranchManager κ β} (h : Relinks manager manager')
    (h' : Relinks manager' manager'') : Relinks manager manager'' := by
  refine ⟨h'.serial.trans h.serial, fun id => (h'.known id).trans (h.known id), ?_, ?_, ?_⟩
  · intro id record record'' hget hget'' hstate
    rcases h'.exists_before hget'' with ⟨record', hget'⟩
    exact h'.released _ _ _ hget' hget'' (h.released _ _ _ hget hget' hstate)
  · intro id record record'' hget hget''
    rcases h'.exists_before hget'' with ⟨record', hget'⟩
    exact List.Subset.trans (h'.children _ _ _ hget' hget'') (h.children _ _ _ hget hget')
  · intro id record record'' childId child'' hget hget'' hchild'' hleads hmem
    rcases h'.exists_before hget'' with ⟨record', hget'⟩
    rcases h'.exists_before hchild'' with ⟨child', hchild'⟩
    exact h'.kept _ _ _ _ _ hget' hget'' hchild'' hleads
      (h.kept _ _ _ _ _ hget hget' hchild' (h'.leadsOn hchild' hchild'' hleads) hmem)

/-- One record is stored anew: it stays released, it has no new links, and those
    that go were above branches that do not lead on. -/
theorem setRecord {manager : BranchManager κ β} {branchId : String}
    {record record' : BranchRecord κ β} (hget : manager.records.get? branchId = some record)
    (hreleased : record.state = .released → record'.state = .released)
    (hchildren : record'.childBranchIds ⊆ record.childBranchIds)
    (hkept : ∀ childId child, (manager.setRecord branchId record').records.get? childId =
      some child →
      child.LeadsOn → childId ∈ record.childBranchIds → childId ∈ record'.childBranchIds) :
    Relinks manager (manager.setRecord branchId record') := by
  -- A record of the branch is written, and every other one is as it was.
  have hcases : ∀ {id : String} {old new : BranchRecord κ β}, manager.records.get? id = some old →
      (manager.setRecord branchId record').records.get? id = some new →
      (id = branchId ∧ old = record ∧ new = record') ∨ (id ≠ branchId ∧ new = old) := by
    intro id old new hold hnew
    rw [setRecord_records] at hnew
    by_cases hid : id = branchId
    · rw [if_pos hid] at hnew
      rw [hid, hget] at hold
      exact .inl ⟨hid, (Option.some.inj hold).symm, (Option.some.inj hnew).symm⟩
    · rw [if_neg hid, hold] at hnew
      exact .inr ⟨hid, (Option.some.inj hnew).symm⟩
  refine ⟨rfl, fun id => ?_, ?_, ?_, ?_⟩
  · rw [setRecord_records]
    by_cases hid : id = branchId
    · rw [if_pos hid, hid, hget]
      rfl
    · rw [if_neg hid]
  -- A released branch stays released.
  · intro id old new hold hnew hstate
    rcases hcases hold hnew with ⟨-, rfl, rfl⟩ | ⟨-, rfl⟩
    · exact hreleased hstate
    · exact hstate
  -- No record gets a child that it did not have.
  · intro id old new hold hnew
    rcases hcases hold hnew with ⟨-, rfl, rfl⟩ | ⟨-, rfl⟩
    · exact hchildren
    · exact List.Subset.refl _
  -- A child that is kept or can lead on stays a child.
  · intro id old new childId child hold hnew hchild hleads hmem
    rcases hcases hold hnew with ⟨-, rfl, rfl⟩ | ⟨-, rfl⟩
    · exact hkept childId child hchild hleads hmem
    · exact hmem

/-- A record that keeps its links. -/
theorem setRecord_links {manager : BranchManager κ β} {branchId : String}
    {record record' : BranchRecord κ β} (hget : manager.records.get? branchId = some record)
    (hreleased : record.state = .released → record'.state = .released)
    (hlinks : record'.childBranchIds = record.childBranchIds) :
    Relinks manager (manager.setRecord branchId record') :=
  setRecord hget hreleased (hlinks ▸ List.Subset.refl _) fun _ _ _ _ hmem => hlinks ▸ hmem

/-- Only the records count. -/
theorem congr {manager manager' other : BranchManager κ β} (h : Relinks manager manager')
    (hrecords : other.records = manager'.records)
    (hserial : other.nextSerial = manager'.nextSerial) :
    Relinks manager other := by
  refine ⟨hserial.trans h.serial, ?_, ?_, ?_, ?_⟩
  · rw [hrecords]
    exact h.known
  · rw [hrecords]
    exact h.released
  · rw [hrecords]
    exact h.children
  · rw [hrecords]
    exact h.kept

end Relinks

theorem cancelled_links (record : BranchRecord κ β) :
    record.cancelled.childBranchIds = record.childBranchIds ∧
      (record.state = .released → record.cancelled.state = .released) := by
  unfold BranchRecord.cancelled
  rcases hstate : record.state <;> simp [hstate]

theorem relinks_cancelOne (manager : BranchManager κ β) (branchId : String) :
    Relinks manager (manager.cancelOne branchId) := by
  unfold cancelOne
  rcases hget : manager.records.get? branchId with _ | record
  · exact .refl manager
  · exact (Relinks.setRecord_links hget (cancelled_links record).2 (cancelled_links record).1).congr
      rfl rfl

theorem relinks_cancelBranches (manager : BranchManager κ β) (branchIds : List String) :
    Relinks manager (manager.cancelBranches branchIds).1 := by
  have hfold : ∀ (visited : List String) (manager : BranchManager κ β),
      Relinks manager (visited.foldl cancelOne manager) := by
    intro visited
    induction visited with
    | nil => exact .refl
    | cons branchId rest ih => exact fun manager =>
        (relinks_cancelOne manager branchId).trans (ih _)
  exact hfold _ manager

/-- Pruning takes a leaf out, and its link from its parent. -/
theorem relinks_pruneReleasedLeaf (fuel : Nat) :
    ∀ (manager : BranchManager κ β) (branchId : String),
      Relinks manager (pruneReleasedLeaf fuel manager branchId) := by
  induction fuel with
  | zero => exact fun manager _ => .refl manager
  | succ fuel ih =>
      intro manager branchId
      unfold pruneReleasedLeaf
      rcases hget : manager.records.get? branchId with _ | current
      · exact .refl manager
      dsimp only
      rcases current.parentBranchId with _ | parentId
      · exact .refl manager
      dsimp only
      split
      · rename_i hleaf
        have hdetached : Relinks manager
            (manager.setRecord branchId { current with parentBranchId := none }) :=
          .setRecord_links hget id rfl
        rcases hparent : (manager.setRecord branchId
          { current with parentBranchId := none }).records.get? parentId with _ | parent
        · exact hdetached
        · refine hdetached.trans (.trans ?_ (ih _ parentId))
          refine .setRecord hparent id List.erase_subset fun childId child hchild hleads hmem => ?_
          -- The branch that goes is a released leaf.
          refine (List.mem_erase_of_ne ?_).mpr hmem
          rintro rfl
          rw [setRecord_records] at hchild
          have hnot : ¬ (({ current with parentBranchId := none } : BranchRecord κ β).LeadsOn) := by
            rintro (hliving | hchildren)
            · exact hliving hleaf.1
            · exact hchildren hleaf.2
          by_cases hself : childId = parentId
          · subst hself
            rw [setRecord_records, if_pos rfl, Option.some.injEq] at hparent
            rw [← hparent] at hmem
            exact absurd hmem (by simp [hleaf.2])
          · rw [if_neg hself, setRecord_records, if_pos rfl, Option.some.injEq] at hchild
            exact hnot (hchild ▸ hleads)
      · exact .refl manager

/-- Compacting prunes the leaf the branch was. -/
theorem relinks_compactReleased (manager : BranchManager κ β) (branchId : String) :
    Relinks manager (manager.compactReleased branchId) := by
  unfold compactReleased
  rcases hget : manager.records.get? branchId with _ | record
  · exact .refl manager
  · refine .trans ?_ (relinks_pruneReleasedLeaf _ _ branchId)
    refine .setRecord hget id (fun _ hmem => List.mem_of_mem_filter hmem) ?_
    intro childId child hchild hleads hmem
    refine List.mem_filter.mpr ⟨hmem, ?_⟩
    rw [setRecord_records] at hchild
    unfold retainsChild
    by_cases hself : childId = branchId
    · rw [hself, hget]
      exact decide_eq_true (.inr (List.ne_nil_of_mem hmem))
    · rw [if_neg hself] at hchild
      rw [hchild]
      exact decide_eq_true hleads

/-- A release marks the branch and compacts it. -/
theorem relinks_releaseState {manager : BranchManager κ β} {branchId : String}
    {record : BranchRecord κ β} :
    Relinks manager (manager.releaseState branchId record) := by
  -- Releasing writes the state last, whatever was done before to the lease or the run.
  have hset : ∀ {cancelled : BranchManager κ β} {kept : BranchRecord κ β},
      Relinks manager cancelled → cancelled.records.get? branchId = some kept →
        Relinks manager (cancelled.setRecord branchId { kept with state := .released }) :=
    fun h hkept => h.trans (.setRecord_links hkept (fun _ => rfl) rfl)
  unfold releaseState
  split
  · exact .refl manager
  · dsimp only
    -- An active branch is cancelled first.
    by_cases hactive : record.state.isActive = true
    · have hcancelled := relinks_cancelOne manager branchId
      rw [if_pos hactive]
      split
      · exact hcancelled
      · rename_i hkept
        exact hset hcancelled hkept
    · rw [if_neg hactive]
      -- An ended one gives back the lease it was granted, if it was granted one.
      cases record.result.bind (·.establishedLease) with
      | none =>
          split
          · exact .refl manager
          · rename_i hkept
            exact hset (.refl manager) hkept
      | some lease =>
          split
          · exact (Relinks.refl manager).congr rfl rfl
          · rename_i hkept
            exact hset ((Relinks.refl manager).congr rfl rfl) hkept

/-- A list of releases. -/
theorem relinks_releaseBranches (branchIds : List String) :
    ∀ manager : BranchManager κ β, Relinks manager (manager.releaseBranches branchIds).1 := by
  induction branchIds with
  | nil => exact .refl
  | cons branchId rest ih =>
      intro manager
      have hone : Relinks manager (manager.releaseOne branchId).1 := by
        unfold releaseOne
        split
        · exact .refl manager
        · exact relinks_releaseState.trans (relinks_compactReleased _ branchId)
      unfold releaseBranches
      generalize manager.releaseOne branchId = released at hone ⊢
      rcases released with ⟨next, exc | done⟩
      · exact hone
      · exact hone.trans (ih next)

theorem relinks_quarantine (manager : BranchManager κ β) (branchIds : List String) :
    Relinks manager (manager.quarantine branchIds) :=
  (relinks_cancelBranches manager _).trans (relinks_releaseBranches _ _)

theorem relinks_finish {manager : BranchManager κ β} {branchId : String}
    {record : BranchRecord κ β} {item : WorkItem κ β} {result : BranchResult κ β}
    (hget : manager.records.get? branchId = some record)
    (hkept : record.state.isDiscarded = false) :
    Relinks manager (manager.finish branchId record item result) := by
  have hset : Relinks manager (manager.setRecord branchId
      { record with
        result := some result
        state := if result.status = .success then .completed else .faulted }) := by
    refine .setRecord_links hget (fun hstate => ?_) rfl
    rw [hstate] at hkept
    cases hkept
  exact hset.congr rfl rfl

/-! ### What keeps a graph linked -/

/-- One branch was submitted under another. -/
def IsParent (origin : String → Option String) (parentId childId : String) : Prop :=
  origin childId = some parentId

instance (origin : String → Option String) (parentId childId : String) :
    Decidable (IsParent origin parentId childId) :=
  inferInstanceAs (Decidable (origin childId = some parentId))

/-- One branch is the other or an ancestor of it. -/
def IsAncestor (origin : String → Option String) : String → String → Prop :=
  Relation.ReflTransGen (IsParent origin)

/-- Ids are those that were given out, children are known, and a branch that
    leads on is among the children of the branch it was submitted under. -/
structure Linked (manager : BranchManager κ β) (origin : String → Option String) : Prop where
  numbered : ∀ id record, manager.records.get? id = some record →
    ∃ serial ≤ manager.nextSerial, id = branchIdOf serial
  children : ∀ parentId childId, Child manager.records parentId childId →
    (manager.records.get? childId).isSome = true
  linked : ∀ id record parentId, manager.records.get? id = some record → record.LeadsOn →
    origin id = some parentId → Child manager.records parentId id

namespace Linked

variable {manager manager' : BranchManager κ β} {origin : String → Option String}

/-- A step that only relinks keeps the graph linked. -/
theorem relinks (h : Linked manager origin) (hrelinks : Relinks manager manager') :
    Linked manager' origin := by
  refine ⟨fun id record' hget' => ?_, ?_, ?_⟩
  · rcases hrelinks.exists_before hget' with ⟨record, hget⟩
    rw [hrelinks.serial]
    exact h.numbered id record hget
  · rintro parentId childId ⟨parent', hparent', hmem⟩
    rcases hrelinks.exists_before hparent' with ⟨parent, hparent⟩
    rw [hrelinks.known]
    exact h.children parentId childId
      ⟨parent, hparent, hrelinks.children _ _ _ hparent hparent' hmem⟩
  · intro id record' parentId hget' hleads horigin
    rcases hrelinks.exists_before hget' with ⟨record, hget⟩
    rcases h.linked id record parentId hget (hrelinks.leadsOn hget hget' hleads) horigin with
      ⟨parent, hparent, hmem⟩
    rcases hrelinks.exists_after hparent with ⟨parent', hparent'⟩
    exact ⟨parent', hparent', hrelinks.kept _ _ _ _ _ hparent hparent' hget' hleads hmem⟩

/-- A branch that leads on is reached from each of its ancestors. -/
theorem descends (h : Linked manager origin) {ancestor id : String}
    (hancestor : IsAncestor origin ancestor id) :
    ∀ record, manager.records.get? id = some record → record.LeadsOn →
      Descends manager.records ancestor id := by
  induction hancestor with
  | refl => exact fun _ _ _ => .refl
  | tail _ hparent ih =>
      intro record hget hleads
      -- Its parent has a child, so the parent leads on as well.
      rcases h.linked _ record _ hget hleads hparent with ⟨parent, hparent, hmem⟩
      exact (ih parent hparent (.inr (List.ne_nil_of_mem hmem))).tail ⟨parent, hparent, hmem⟩

theorem fresh (h : Linked manager origin) :
    manager.records.get? (branchIdOf (manager.nextSerial + 1)) = none := by
  rcases hget : manager.records.get? (branchIdOf (manager.nextSerial + 1)) with _ | record
  · rfl
  · rcases h.numbered _ record hget with ⟨serial, hserial, hid⟩
    have hstring : toString (manager.nextSerial + 1) = toString serial :=
      String.toList_inj.mp (List.append_cancel_left
        ((String.toList_append ..).symm.trans ((congrArg String.toList hid).trans
          (String.toList_append ..))))
    have hsame := PyNumber.nat_toString_inj hstring
    omega

end Linked

/-! ### Submissions -/

/-- What every branch was submitted under: as before, or as a new branch says. -/
def remember (manager manager' : BranchManager κ β) (origin : String → Option String)
    (id : String) : Option String :=
  if (manager.records.get? id).isSome then origin id
  else (manager'.records.get? id).bind (·.parentBranchId)

/-- Branches stay, with their parents and states. -/
def Extends (manager manager' : BranchManager κ β) : Prop :=
  ∀ id record, manager.records.get? id = some record →
    ∃ record', manager'.records.get? id = some record' ∧
      record'.parentBranchId = record.parentBranchId ∧ record'.state = record.state

/-- What a submission under a living branch does to the records. -/
theorem addBranch_records {manager : BranchManager κ β} {entry : WorkItem κ β × Option String}
    (hfresh : manager.records.get? (branchIdOf (manager.nextSerial + 1)) = none)
    (hparent : ∀ parentId, entry.2 = some parentId →
      (manager.records.get? parentId).isSome = true) (id : String) :
    (manager.addBranch entry).records.get? id =
      if id = branchIdOf (manager.nextSerial + 1) then
        some { workItem := some entry.1, state := .queued, parentBranchId := entry.2 }
      else (manager.records.get? id).map fun record =>
        if entry.2 = some id then
          { record with
            childBranchIds := record.childBranchIds ++ [branchIdOf (manager.nextSerial + 1)] }
        else record := by
  unfold addBranch
  dsimp only
  -- Without a parent one record is written.
  rcases hentry : entry.2 with _ | parentId
  · change (manager.setRecord _ _).records.get? id = _
    rw [setRecord_records]
    simp
  · dsimp only
    -- The parent is known and the new branch is not, so that they are two.
    have hne : parentId ≠ branchIdOf (manager.nextSerial + 1) := by
      rintro rfl
      have hsome := hparent _ hentry
      rw [hfresh] at hsome
      cases hsome
    rcases Option.isSome_iff_exists.mp (hparent parentId hentry) with ⟨parent, hget⟩
    -- The parent's record is read after the child's was written, and is still the old one.
    have hadded : (manager.setRecord (branchIdOf (manager.nextSerial + 1))
        { workItem := some entry.1, state := .queued,
          parentBranchId := some parentId }).records.get? parentId = some parent := by
      rw [setRecord_records, if_neg hne, hget]
    rw [hadded]
    dsimp only
    rw [setRecord_records]
    change (if id = parentId then _ else (manager.setRecord _ _).records.get? id) = _
    rw [setRecord_records]
    -- Every other record is neither the parent nor the child.
    by_cases hid : id = parentId
    · subst hid
      rw [if_pos rfl, if_neg hne, hget, Option.map_some, if_pos rfl]
    · have hsome : (some parentId : Option String) ≠ some id :=
        fun h => hid (Option.some.inj h).symm
      rw [if_neg hid]
      simp only [if_neg hsome, Option.map_id']

/-- A new branch is linked to its parent, which is there and leads on. -/
theorem Linked.addBranch {manager : BranchManager κ β} {origin : String → Option String}
    (h : Linked manager origin) {entry : WorkItem κ β × Option String}
    (hparent : ∀ parentId, entry.2 = some parentId →
      ∃ record, manager.records.get? parentId = some record ∧ record.state ≠ .released) :
    Linked (manager.addBranch entry) (remember manager (manager.addBranch entry) origin) ∧
      Extends manager (manager.addBranch entry) := by
  -- The serial number goes up by one, whether or not there is a parent.
  have hserial : (manager.addBranch entry).nextSerial = manager.nextSerial + 1 := by
    unfold BranchManager.addBranch
    dsimp only
    split
    · rfl
    · split <;> rfl
  have hrecords := addBranch_records h.fresh fun parentId hentry => by
    rcases hparent parentId hentry with ⟨record, hget, -⟩
    rw [hget]
    rfl
  generalize manager.addBranch entry = added at hserial hrecords ⊢
  -- A known record stays, with the new branch among its children if it is the parent.
  have hold : ∀ id record, manager.records.get? id = some record →
      added.records.get? id = some (if entry.2 = some id then
        { record with
          childBranchIds := record.childBranchIds ++ [branchIdOf (manager.nextSerial + 1)] }
        else record) := by
    intro id record hget
    have hne : id ≠ branchIdOf (manager.nextSerial + 1) := by
      rintro rfl
      rw [h.fresh] at hget
      cases hget
    rw [hrecords, if_neg hne, hget]
    rfl
  -- So a link that was there is there.
  have hchild : ∀ parentId childId, Child manager.records parentId childId →
      Child added.records parentId childId := by
    rintro parentId childId ⟨record, hget, hmem⟩
    refine ⟨_, hold parentId record hget, ?_⟩
    split
    · exact List.mem_append_left _ hmem
    · exact hmem
  have hextends : Extends manager added := by
    intro id record hget
    refine ⟨_, hold id record hget, ?_⟩
    split <;> exact ⟨rfl, rfl⟩
  refine ⟨⟨?_, ?_, ?_⟩, hextends⟩
  -- The ids of known branches are numbered up to the serial number, and the new one is the last.
  · intro id record' hget'
    rw [hserial]
    rw [hrecords] at hget'
    by_cases hnew : id = branchIdOf (manager.nextSerial + 1)
    · exact ⟨_, Nat.le_refl _, hnew⟩
    · rw [if_neg hnew] at hget'
      rcases Option.map_eq_some_iff.mp hget' with ⟨record, hget, -⟩
      rcases h.numbered id record hget with ⟨serial, hle, hid⟩
      exact ⟨serial, Nat.le_succ_of_le hle, hid⟩
  -- Children are known: the old ones were, and the new one is now.
  · rintro parentId childId ⟨record', hget', hmem⟩
    rw [hrecords] at hget'
    split at hget'
    · cases hget'
      cases hmem
    · rcases Option.map_eq_some_iff.mp hget' with ⟨record, hget, rfl⟩
      have hmem' : childId ∈ record.childBranchIds ∨
          childId = branchIdOf (manager.nextSerial + 1) := by
        split at hmem
        · rcases List.mem_append.mp hmem with hold | hnew
          · exact .inl hold
          · exact .inr (List.mem_singleton.mp hnew)
        · exact .inl hmem
      rcases hmem' with hmem' | rfl
      · have hknown := h.children parentId childId ⟨record, hget, hmem'⟩
        rcases Option.isSome_iff_exists.mp hknown with ⟨child, hchild⟩
        rw [hold childId child hchild]
        rfl
      · rw [hrecords, if_pos rfl]
        rfl
  · intro id record' parentId hget' hleads horigin
    -- The origins of known branches are remembered as they were.
    unfold remember at horigin
    by_cases hnew : id = branchIdOf (manager.nextSerial + 1)
    · -- A new branch is among the children of its parent.
      subst hnew
      rw [h.fresh, hget'] at horigin
      rw [hrecords, if_pos rfl, Option.some.injEq] at hget'
      subst hget'
      have hentry : entry.2 = some parentId := horigin
      rcases hparent parentId hentry with ⟨parent, hget, -⟩
      refine ⟨_, hold parentId parent hget, ?_⟩
      rw [if_pos hentry]
      exact List.mem_append_right _ (.head _)
    · rw [hrecords, if_neg hnew] at hget'
      rcases Option.map_eq_some_iff.mp hget' with ⟨record, hget, rfl⟩
      rw [hget, Option.isSome_some, if_pos rfl] at horigin
      refine hchild _ _ (h.linked id record parentId hget ?_ horigin)
      split at hleads
      · -- The parent of the new branch is living.
        rename_i hentry
        rcases hparent id hentry with ⟨parent, hget', hliving⟩
        rw [hget, Option.some.injEq] at hget'
        exact .inl (hget' ▸ hliving)
      · exact hleads

theorem Linked.congr {manager : BranchManager κ β} {origin origin' : String → Option String}
    (h : Linked manager origin)
    (hsame : ∀ id, (manager.records.get? id).isSome = true → origin' id = origin id) :
    Linked manager origin' := by
  refine ⟨h.numbered, h.children, fun id record parentId hget hleads horigin => ?_⟩
  rw [hsame id (by rw [hget]; rfl)] at horigin
  exact h.linked id record parentId hget hleads horigin

theorem Extends.refl (manager : BranchManager κ β) : Extends manager manager :=
  fun _ record hget => ⟨record, hget, rfl, rfl⟩

theorem Extends.trans {manager manager' manager'' : BranchManager κ β}
    (h : Extends manager manager') (h' : Extends manager' manager'') :
    Extends manager manager'' := by
  intro id record hget
  rcases h id record hget with ⟨record', hget', hparent, hstate⟩
  rcases h' id record' hget' with ⟨record'', hget'', hparent', hstate'⟩
  exact ⟨record'', hget'', hparent'.trans hparent, hstate'.trans hstate⟩

/-- Branches submitted under living ones. -/
theorem Linked.foldl_addBranch (entries : List (WorkItem κ β × Option String)) :
    ∀ {manager : BranchManager κ β} {origin : String → Option String}, Linked manager origin →
      (∀ entry ∈ entries, ∀ parentId, entry.2 = some parentId →
        ∃ record, manager.records.get? parentId = some record ∧ record.state ≠ .released) →
      Linked (entries.foldl BranchManager.addBranch manager)
          (remember manager (entries.foldl BranchManager.addBranch manager) origin) ∧
        Extends manager (entries.foldl BranchManager.addBranch manager) := by
  induction entries with
  | nil =>
      intro manager origin h _
      exact ⟨h.congr fun id hid => if_pos hid, .refl manager⟩
  | cons entry rest ih =>
      intro manager origin h hparents
      rcases h.addBranch (hparents entry (.head _)) with ⟨hadded, hextends⟩
      have hliving : ∀ other ∈ rest, ∀ parentId, other.2 = some parentId →
          ∃ record, (manager.addBranch entry).records.get? parentId = some record ∧
            record.state ≠ .released := by
        intro other hother parentId hparent
        rcases hparents other (.tail _ hother) parentId hparent with ⟨record, hget, hstate⟩
        rcases hextends parentId record hget with ⟨record', hget', -, hstate'⟩
        exact ⟨record', hget', hstate' ▸ hstate⟩
      rcases ih hadded hliving with ⟨hlinked, hextends'⟩
      refine ⟨hlinked.congr fun id _ => ?_, hextends.trans hextends'⟩
      -- A branch added before keeps the parent it says.
      unfold remember
      rcases hold : manager.records.get? id with _ | record
      · rcases hadded : (manager.addBranch entry).records.get? id with _ | record'
        · rfl
        · rcases hextends' id record' hadded with ⟨record'', hget'', hparent, -⟩
          rw [List.foldl_cons, hget'']
          exact hparent
      · rcases hextends id record hold with ⟨record', hget', -, -⟩
        rw [hget']
        rfl

/-! ### Polls -/

theorem relinks_launch (schedule : PollSchedule) {st : PollState κ β} {branchId : String}
    {record : BranchRecord κ β} (routing : Routing κ β)
    (hget : st.manager.records.get? branchId = some record) (hqueued : record.state = .queued) :
    Relinks st.manager (launch schedule st branchId record routing).manager := by
  have hset : Relinks st.manager
      (st.manager.setRecord branchId (launchedRecord st record routing)) := by
    refine .setRecord_links hget (fun hstate => ?_) rfl
    rw [hqueued] at hstate
    cases hstate
  exact hset.congr rfl rfl

theorem relinks_move {digests : Digests κ} {schedule : PollSchedule} {st st' : PollState κ β}
    (h : DispatchMove digests schedule st st') : Relinks st.manager st'.manager := by
  cases h with
  | skip waiting hsub => exact .refl _
  | launch branchId record item hget hqueued hitem hwaits hfree =>
      exact relinks_launch schedule _ hget hqueued

theorem relinks_moves {digests : Digests κ} {schedule : PollSchedule} {st st' : PollState κ β}
    (h : DispatchMoves digests schedule st st') : Relinks st.manager st'.manager := by
  induction h with
  | refl => exact .refl _
  | tail _ hmove ih => exact ih.trans (relinks_move hmove)

/-- A slot that completes is settled at its branch. -/
theorem relinks_complete (st : PollState κ β) (slot : Outstanding) (result : BranchResult κ β) :
    Relinks st.manager (complete st slot result).1.manager := by
  have hforget : Relinks st.manager (forget st slot).manager := (Relinks.refl _).congr rfl rfl
  unfold complete
  dsimp only
  split
  · exact hforget
  · rename_i record hget
    split
    · exact hforget
    · rename_i hkept
      split
      · exact hforget
      · exact hforget.trans (relinks_finish hget (by simpa using hkept))

/-- So is one that expires. -/
theorem relinks_expire (st : PollState κ β) (slot : Outstanding) :
    Relinks st.manager (expire st slot).1.manager := by
  have hforget : Relinks st.manager (forget st slot).manager := (Relinks.refl _).congr rfl rfl
  unfold expire
  dsimp only
  split
  · exact hforget
  · rename_i record hget
    split
    · exact hforget
    · rename_i hkept
      split
      · exact hforget
      · have hrespawned : Relinks st.manager { (forget st slot).manager with
            pool := (forget st slot).manager.pool.respawnWorker slot.workerId } :=
          hforget.congr rfl rfl
        refine hrespawned.trans (relinks_finish ?_ (by simpa using hkept))
        exact hget

theorem relinks_expireAll (slots : List Outstanding) :
    ∀ st : PollState κ β, Relinks st.manager (expireAll st slots).1.manager := by
  induction slots with
  | nil => exact fun st => .refl _
  | cons slot rest ih =>
      intro st
      have hone := relinks_expire st slot
      unfold expireAll
      generalize expire st slot = expired at hone ⊢
      rcases expired with ⟨next, exc | done⟩
      · exact hone
      · exact hone.trans (ih next)

theorem relinks_handled (st : PollState κ β) (event : PollEvent κ β) :
    Relinks st.manager (handled st event).manager := by
  unfold handled
  split
  · exact .refl _
  · split
    · exact .refl _
    · exact relinks_complete st _ _
  · exact relinks_expireAll _ st

theorem relinks_outcome {digests : Digests κ} {schedule : PollSchedule} {admitted : List String}
    {st st' : PollState κ β} {run : ManagerRun κ β} (hmoves : DispatchMoves digests schedule st st')
    (houtcome : PollOutcome schedule admitted st' run) : Relinks st.manager run.manager := by
  have hsent := relinks_moves hmoves
  cases houtcome with
  | goesOn => exact hsent
  | returned hidle => exact hsent
  | raised => exact hsent.trans (relinks_quarantine _ _)

end BranchManager

open BranchManager

/-! ### Runs -/

namespace ManagerRun

variable (digests : Digests κ)

/-- Every step but a submission only takes links away. -/
theorem relinks_step (run : ManagerRun κ β) (call : ManagerCall κ β)
    (hcall : ∀ entries, call ≠ .submit entries) :
    Relinks run.manager (run.step digests call).1.manager := by
  cases run with
  -- Between two polls the call decides; in a poll only what the workers answer and the turn of a
  -- worker change anything.
  | idle manager =>
      cases call with
      | submit entries => exact absurd rfl (hcall entries)
      | poll schedule branchIds =>
          change Relinks manager (startPoll digests manager schedule branchIds).manager
          -- A poll is refused, or moves requests and then ends or goes on.
          rcases startPoll_outcome digests schedule manager branchIds with
            hrefused | ⟨admitted, st', hmoves, houtcome⟩
          · rw [hrefused]
            exact .refl manager
          · exact relinks_outcome hmoves houtcome
      | cancel branchIds => exact relinks_cancelBranches manager branchIds
      | release branchIds => exact relinks_releaseBranches branchIds manager
      | respawn workerId => exact (Relinks.refl manager).congr rfl rfl
      | run workerId execution => exact (Relinks.refl manager).congr rfl rfl
      | receive => exact .refl manager
      | empty now => exact .refl manager
      | raise exc => exact .refl manager
  | polling schedule admitted st =>
      -- An answer is handled, then requests are moved, then the loop goes on or ends.
      have hanswer : ∀ (st : PollState κ β) event,
          Relinks st.manager (onAnswer digests schedule admitted st event).manager := by
        intro st event
        rcases onAnswer_outcome digests schedule admitted st event with ⟨st', hmoves, houtcome⟩
        exact (relinks_handled st event).trans (relinks_outcome hmoves houtcome)
      cases call with
      | submit entries => exact absurd rfl (hcall entries)
      | poll schedule' branchIds => exact .refl _
      | cancel branchIds => exact .refl _
      | release branchIds => exact .refl _
      | respawn workerId => exact .refl _
      | run workerId execution => exact (Relinks.refl _).congr rfl rfl
      | receive =>
          change Relinks st.manager (ManagerRun.receive digests schedule admitted st).manager
          unfold ManagerRun.receive
          split
          · exact .refl _
          · rename_i rest _
            -- Taking a message off the queue touches no record.
            have htaken : Relinks st.manager { st.manager with
                pool := { st.manager.pool with resultQueue := rest } } :=
              (Relinks.refl st.manager).congr rfl rfl
            exact htaken.trans (hanswer { st with manager := { st.manager with
              pool := { st.manager.pool with resultQueue := rest } } } _)
      | empty now => exact hanswer st (.empty now)
      | raise exc => exact hanswer st (.raised exc)

end ManagerRun

/-- A run, with what every branch was submitted under. -/
structure GraphRun (κ β : Type) where
  run : ManagerRun κ β
  origin : String → Option String

namespace GraphRun

variable (digests : Digests κ)

/-- One step, in which new branches are remembered. -/
def step (graph : GraphRun κ β) (call : ManagerCall κ β) : GraphRun κ β × Unit :=
  let run := (graph.run.step digests call).1
  (⟨run, remember graph.run.manager run.manager graph.origin⟩, ())

/-- A manager without branches, and no history. -/
def start (workerCount : Nat) (workerCount_pos : 0 < workerCount) (maxBranches : Nat)
    (maxBranches_pos : 0 < maxBranches) : GraphRun κ β :=
  ⟨.start workerCount workerCount_pos maxBranches maxBranches_pos, fun _ => none⟩

/-- Branches are submitted under parents that are not released. -/
def SubmitsUnderLiving (graph : GraphRun κ β) (call : ManagerCall κ β) : Prop :=
  match call with
  | .submit entries => ∀ entry ∈ entries, ∀ parentId ∈ entry.2,
      ∀ record ∈ graph.run.manager.records.get? parentId, record.state ≠ .released
  | _ => True

instance (graph : GraphRun κ β) (call : ManagerCall κ β) :
    Decidable (graph.SubmitsUnderLiving call) :=
  match call with
  | .submit entries => inferInstanceAs (Decidable (∀ entry ∈ entries, ∀ parentId ∈ entry.2,
      ∀ record ∈ graph.run.manager.records.get? parentId, record.state ≠ .released))
  | .poll _ _ => .isTrue trivial
  | .cancel _ => .isTrue trivial
  | .release _ => .isTrue trivial
  | .respawn _ => .isTrue trivial
  | .run _ _ => .isTrue trivial
  | .receive => .isTrue trivial
  | .empty _ => .isTrue trivial
  | .raise _ => .isTrue trivial

/-- Every step keeps the graph linked. -/
theorem linked_step (graph : GraphRun κ β) (call : ManagerCall κ β)
    (h : Linked graph.run.manager graph.origin) (hcall : graph.SubmitsUnderLiving call) :
    Linked (graph.step digests call).1.run.manager (graph.step digests call).1.origin := by
  -- A call that only relinks keeps the graph, since no branch is new and the origins stay.
  have hkept : ∀ manager', Relinks graph.run.manager manager' →
      Linked manager' (remember graph.run.manager manager' graph.origin) := by
    intro manager' hrelinks
    refine (h.relinks hrelinks).congr fun id hid => if_pos ?_
    rw [← hrelinks.known]
    exact hid
  by_cases hsubmit : ∃ entries, call = .submit entries
  · rcases hsubmit with ⟨entries, rfl⟩
    rcases graph with ⟨run, origin⟩
    cases run with
    | polling schedule admitted st => exact hkept _ (.refl _)
    | idle manager =>
        change Linked (manager.submitMany entries).1
          (remember manager (manager.submitMany entries).1 origin)
        unfold submitMany
        split
        · exact hkept _ (.refl _)
        -- A submission is refused, or its parents are known, and by the condition not released.
        · rename_i hknown
          split
          · exact hkept _ (.refl _)
          · refine (h.foldl_addBranch entries fun entry hentry parentId hparent => ?_).1
            have hsome := List.find?_eq_none.mp hknown parentId
              (List.mem_filterMap.mpr ⟨entry, hentry, hparent⟩)
            rcases hget : manager.records.get? parentId with _ | record
            · rw [hget] at hsome
              exact absurd rfl hsome
            · exact ⟨record, hget, hcall entry hentry parentId hparent record hget⟩
  -- Every other call relinks.
  · exact hkept _ (ManagerRun.relinks_step digests graph.run call
      fun entries heq => hsubmit ⟨entries, heq⟩)

theorem linked_start (workerCount : Nat) (workerCount_pos : 0 < workerCount) (maxBranches : Nat)
    (maxBranches_pos : 0 < maxBranches) :
    Linked (start workerCount workerCount_pos maxBranches maxBranches_pos :
        GraphRun κ β).run.manager
      (start workerCount workerCount_pos maxBranches maxBranches_pos : GraphRun κ β).origin := by
  refine ⟨fun _ _ hget => ?_, ?_, fun _ _ _ hget => ?_⟩
  · cases hget
  · rintro _ _ ⟨_, hget, _⟩
    cases hget
  · cases hget

/-- In every run in which branches are submitted under parents that are not
    released, a branch that is not released is reached from each of its ancestors,
    a cancel of an ancestor cancels it, and the loop that prunes ends. -/
theorem cascade_graph_sound (workerCount : Nat) (workerCount_pos : 0 < workerCount)
    (maxBranches : Nat) (maxBranches_pos : 0 < maxBranches) (calls : List (ManagerCall κ β))
    (hcalls : Run.Along (step digests) SubmitsUnderLiving
      (start workerCount workerCount_pos maxBranches maxBranches_pos) calls) :
    let graph := Run.final (step digests)
      (start workerCount workerCount_pos maxBranches maxBranches_pos) calls
    (∀ ancestor id record, graph.run.manager.records.get? id = some record →
      record.state ≠ .released → IsAncestor graph.origin ancestor id →
      Descends graph.run.manager.records ancestor id) ∧
    (∀ branchIds, (∀ id ∈ branchIds, (graph.run.manager.records.get? id).isSome = true) →
      (graph.run.manager.cancelBranches branchIds).2 = .ok () ∧
      ∀ ancestor ∈ branchIds, ∀ id record, graph.run.manager.records.get? id = some record →
        record.state ≠ .released → IsAncestor graph.origin ancestor id →
        ((graph.run.manager.cancelBranches branchIds).1.records.get? id).map (·.state) =
          some .cancelled) ∧
    ∀ (manager : BranchManager κ β) (branchId : String),
      Prunes manager branchId (pruneReleasedLeaf manager.records.size manager branchId) := by
  intro graph
  -- The graph is linked in every state of a run whose submissions name living parents.
  have hlinked : Linked graph.run.manager graph.origin :=
    Run.invariant_along (step digests) (I := fun graph => Linked graph.run.manager graph.origin)
      (fun graph call h hcall => linked_step digests graph call h hcall) _ calls
      (linked_start workerCount workerCount_pos maxBranches maxBranches_pos) hcalls
  have hdescends : ∀ ancestor id record, graph.run.manager.records.get? id = some record →
      record.state ≠ .released → IsAncestor graph.origin ancestor id →
      Descends graph.run.manager.records ancestor id :=
    fun _ _ record hget hliving hancestor => hlinked.descends hancestor record hget (.inl hliving)
  refine ⟨hdescends, fun branchIds hknown => ?_, fun manager branchId =>
    pruneReleasedLeaf_prunes _ manager branchId (parentCount_le_size _)⟩
  -- A cancellation reaches whatever descends from a branch that is named.
  rcases cancelBranches_reaches hlinked.children hknown with ⟨hok, hreached⟩
  refine ⟨hok, fun ancestor hmem id record hget hliving hancestor => ?_⟩
  rw [hreached ancestor hmem id (hdescends ancestor id record hget hliving hancestor), hget]
  refine congrArg some ?_
  -- And what is reached is cancelled, unless it was released.
  unfold BranchRecord.cancelled
  rcases hstate : record.state <;> simp [hstate] at hliving ⊢

/-- A branch, one under it and one under that; the middle one is released. -/
def chainCalls : List (ManagerCall Unit Unit) :=
  [.submit [(BranchWorkerPool.cardItem "STRIKE", none)],
    .submit [(BranchWorkerPool.cardItem "DEFEND", some "branch-1")],
    .submit [(BranchWorkerPool.cardItem "STRIKE", some "branch-2")], .release ["branch-2"]]

/-- A chain of three branches with the one in the middle released: the last is still reached. -/
theorem cascade_graph_sound_chain :
    Descends (Run.final (step BranchWorkerPool.lastActionDigests)
      (start 1 Nat.one_pos 8 (by decide))
      chainCalls).run.manager.records "branch-1" "branch-3" := by
  have hcalls : Run.Along (step BranchWorkerPool.lastActionDigests) SubmitsUnderLiving
      (start 1 Nat.one_pos 8 (by decide)) chainCalls := by
    refine ⟨?_, ?_, ?_, ?_, trivial⟩ <;> decide +kernel
  have hsound := cascade_graph_sound BranchWorkerPool.lastActionDigests 1 Nat.one_pos 8
    (by decide) chainCalls hcalls
  have hrecord : ((Run.final (step BranchWorkerPool.lastActionDigests)
    (start 1 Nat.one_pos 8 (by decide))
      chainCalls).run.manager.records.get? "branch-3").map (·.state) = some .queued := by
    decide +kernel
  rcases Option.map_eq_some_iff.mp hrecord with ⟨record, hget, hstate⟩
  refine hsound.1 "branch-1" "branch-3" record hget (by rw [hstate]; decide) ?_
  have hfirst : IsParent (Run.final (step BranchWorkerPool.lastActionDigests)
    (start 1 Nat.one_pos 8 (by decide))
      chainCalls).origin "branch-1" "branch-2" := by
    decide +kernel
  have hsecond : IsParent (Run.final (step BranchWorkerPool.lastActionDigests)
    (start 1 Nat.one_pos 8 (by decide))
      chainCalls).origin "branch-2" "branch-3" := by
    decide +kernel
  exact (Relation.ReflTransGen.single hfirst).tail hsecond

end GraphRun

end Combat

end STS2RL
