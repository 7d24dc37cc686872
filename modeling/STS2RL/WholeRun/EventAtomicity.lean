import STS2RL.WholeRun.FrozenInstance
import STS2RL.WholeRun.KnownBranches
import STS2RL.WholeRun.PreparedBranches

/-!
# Event Batches are Atomic

A batch of branches at an event is checked and prepared without a change. Then
its branches are committed one after another, and when one of them cannot be,
those before it are rolled back.

Rolling back the branch that was committed last restores all records but the
count of the generations of its hypothesis, because the branch was not known
before. The counts only grow while a batch is committed, and so putting back the
old counts of the hypotheses of the batch restores them.

## Main definitions

* `committedAs`, `CommittedChain`: What committing branches does.
* `Grown`: Counts that were counted up, for some hypotheses.

## Theorems

* `commitPreparedBranch_after`: A branch is committed, or nothing changes.
* `rollback_committedChain`: Rolling back restores all but the counts.
* `restoreGenerations_grown`: The counts are restored.
* `commitBatch_after`: A batch is committed, or nothing changes.
* `known_step`: The records speak of known branches in every run.
* `event_batch_atomic`: The law of a batch.
-/

namespace STS2RL

namespace WholeRun

open Api (PyError Fields EmulateItem RngKey BranchIdRegistry DecisionPointRegistry)

variable {W Φ κ β α : Type}

namespace EventRngHypothesisRegistry

/-- Counts that came from others by counting up, for some of the keys. -/
structure Grown (keys : List RngKey) (before after : Dict RngKey Nat) : Prop where
  extra : ∃ added, after.keys = before.keys ++ added ∧ ∀ key ∈ added, key ∈ keys
  others : ∀ key, key ∉ keys → after.get? key = before.get? key
  grows : ∀ key count, before.get? key = some count → ∃ count', count ≤ count' ∧
    after.get? key = some count'

theorem Grown.refl (keys : List RngKey) (counts : Dict RngKey Nat) : Grown keys counts counts where
  extra := ⟨[], by simp, by simp⟩
  others _ _ := rfl
  grows _ count h := ⟨count, Nat.le_refl _, h⟩

/-- What grew twice has grown. -/
theorem Grown.trans {keys : List RngKey} {a b c : Dict RngKey Nat} (h : Grown keys a b)
    (h' : Grown keys b c) : Grown keys a c where
  extra := by
    rcases h.extra with ⟨added, hadded, hmem⟩
    rcases h'.extra with ⟨added', hadded', hmem'⟩
    refine ⟨added ++ added', by rw [hadded', hadded, List.append_assoc], fun key hkey => ?_⟩
    rcases List.mem_append.mp hkey with hkey | hkey
    · exact hmem key hkey
    · exact hmem' key hkey
  others key hkey := (h'.others key hkey).trans (h.others key hkey)
  grows key count hcount := by
    rcases h.grows key count hcount with ⟨count', hle, hcount'⟩
    rcases h'.grows key count' hcount' with ⟨count'', hle', hcount''⟩
    exact ⟨count'', hle.trans hle', hcount''⟩

theorem Grown.mono {keys keys' : List RngKey} {a b : Dict RngKey Nat} (h : Grown keys a b)
    (hsub : ∀ key ∈ keys, key ∈ keys') : Grown keys' a b where
  extra := by
    rcases h.extra with ⟨added, hadded, hmem⟩
    exact ⟨added, hadded, fun key hkey => hsub key (hmem key hkey)⟩
  others key hkey := h.others key fun hmem => hkey (hsub key hmem)
  grows := h.grows

variable {registry : EventRngHypothesisRegistry}

/-- Committing a branch counts up for its hypothesis at most. -/
theorem grown_commitBranch {key : RngKey} {state : EventRngState} {branchId : PyStr}
    {committed : EventRngHypothesisRegistry}
    (h : registry.commitBranch key state branchId = .ok committed) :
    Grown [key] registry.generationCounts committed.generationCounts := by
  rcases commitBranch_eq_ok h with ⟨ensured, hensured, rfl⟩
  refine show Grown [key] registry.generationCounts ensured.generationCounts from ?_
  rcases ensureEntry_eq_ok hensured with ⟨generation, hentry, rfl⟩ | ⟨hentry, rfl⟩
  · exact .refl _ _
  · refine ⟨?_, fun other hother => ?_, fun other count hcount => ?_⟩
    · cases hget : registry.generationCounts.get? key with
      | none => exact ⟨[key], Dict.keys_set_of_none _ _ hget, by simp⟩
      | some count => exact ⟨[], by simp [Dict.keys_set_of_some _ _ hget], by simp⟩
    · exact Dict.get?_set_ne _ _ (by simpa using hother)
    · by_cases hkey : other = key
      · refine ⟨registry.generationOf key + 1, ?_, hkey ▸ Dict.get?_set_self _ _ _⟩
        unfold generationOf
        rw [← hkey, hcount, Option.getD_some]
        exact Nat.le_succ _
      · exact ⟨count, Nat.le_refl _, (Dict.get?_set_ne _ _ hkey).trans hcount⟩

/-- One turn of the loop puts the count of one hypothesis back. -/
theorem restoreGeneration_grown {before : Dict RngKey Nat} {key : RngKey} {keys : List RngKey}
    (hcounted : ∀ count, before.get? key = some count → count ≠ 0)
    (hgrown : Grown (key :: keys) before registry.generationCounts) :
    ∃ restored, registry.restoreGeneration (key, (before.get? key).getD 0) =
        .ok { registry with generationCounts := restored } ∧ Grown keys before restored := by
  rcases hgrown.extra with ⟨added, hadded, hmem⟩
  unfold restoreGeneration
  dsimp only
  -- The key had no count: it is removed again.
  cases hkey : before.get? key with
  | none =>
      refine ⟨registry.generationCounts.erase key, ?_, ?_, fun other hother => ?_,
        fun other count hcount => ?_⟩
      · rw [Option.getD_none, if_neg (Nat.not_lt_zero _), if_pos rfl]
      · refine ⟨added.filter fun other => other ≠ key, ?_, fun other hother => ?_⟩
        · rw [Dict.keys_erase, hadded, List.filter_append]
          refine congrArg (· ++ _) (List.filter_eq_self.mpr fun other hother => ?_)
          rcases (Dict.mem_keys_iff _ _).mp hother with ⟨count, hcount⟩
          simp only [decide_eq_true_eq]
          rintro rfl
          rw [hcount] at hkey
          cases hkey
        · rw [List.mem_filter] at hother
          rcases List.mem_cons.mp (hmem other hother.1) with heq | hother'
          · exact absurd heq (by simpa using hother.2)
          · exact hother'
      · by_cases heq : other = key
        · rw [heq, Dict.get?_erase_self, hkey]
        · rw [Dict.get?_erase_ne _ heq]
          exact hgrown.others other (by simp [heq, hother])
      · have hne : other ≠ key := by
          rintro rfl
          rw [hcount] at hkey
          cases hkey
        rw [Dict.get?_erase_ne _ hne]
        exact hgrown.grows other count hcount
  -- It had one: the count is set back to it, and the order of the keys is the one there was.
  | some count =>
      rcases hgrown.grows key count hkey with ⟨count', hle, hcount'⟩
      have hnot : ¬ registry.generationOf key < count := by
        unfold generationOf
        rw [hcount', Option.getD_some]
        exact Nat.not_lt.mpr hle
      refine ⟨registry.generationCounts.set key count, ?_, ?_, fun other hother => ?_,
        fun other c hc => ?_⟩
      · rw [Option.getD_some, if_neg hnot, if_neg (hcounted count hkey)]
      · refine ⟨added, (Dict.keys_set_of_some _ _ hcount').trans hadded, fun other hother => ?_⟩
        rcases List.mem_cons.mp (hmem other hother) with heq | hother'
        · -- A key that was added was not there before.
          have hnodup : (before.keys ++ added).Nodup := hadded ▸ registry.generationCounts.nodup
          have hthere : key ∈ before.keys := (Dict.mem_keys_iff _ _).mpr ⟨count, hkey⟩
          exact absurd (heq ▸ hother) (List.disjoint_of_nodup_append hnodup hthere)
        · exact hother'
      · by_cases heq : other = key
        · rw [heq, Dict.get?_set_self, hkey]
        · rw [Dict.get?_set_ne _ _ heq]
          exact hgrown.others other (by simp [heq, hother])
      · by_cases heq : other = key
        · rw [heq, hkey] at hc
          cases hc
          exact ⟨count, Nat.le_refl _, heq ▸ Dict.get?_set_self _ _ _⟩
        · rw [Dict.get?_set_ne _ _ heq]
          exact hgrown.grows other c hc

/-- Nothing is left to be put back. -/
theorem Grown.eq_of_nil {before after : Dict RngKey Nat} (h : Grown [] before after) :
    after = before := by
  rcases h.extra with ⟨added, hadded, hmem⟩
  have hnil : added = [] := List.eq_nil_iff_forall_not_mem.mpr fun key hkey => by
    cases hmem key hkey
  rw [hnil, List.append_nil] at hadded
  exact Dict.ext_keys hadded fun key => h.others key (by simp)

theorem restoreGenerations_cons {saved : RngKey × Nat} (rest : List (RngKey × Nat))
    {restored : EventRngHypothesisRegistry} (h : registry.restoreGeneration saved = .ok restored) :
    restoreGenerations (saved :: rest) registry = restoreGenerations rest restored := by
  unfold restoreGenerations
  rw [Act.forEach, Act.bind_apply, Act.get_bind, h]
  rfl

/-- The loop puts the counts of all the hypotheses back. -/
theorem restoreGenerations_loop {before : Dict RngKey Nat} (keys : List RngKey)
    (hcounted : ∀ key count, before.get? key = some count → count ≠ 0)
    (hgrown : Grown keys before registry.generationCounts) :
    restoreGenerations (keys.map fun key => (key, (before.get? key).getD 0)) registry =
      (.ok (), { registry with generationCounts := before }) := by
  induction keys generalizing registry with
  | nil =>
      rw [← hgrown.eq_of_nil]
      rfl
  | cons key rest ih =>
      rcases restoreGeneration_grown (hcounted key) hgrown with ⟨restored, hrestored, hgrown'⟩
      have hgrown'' : Grown rest before
          { registry with generationCounts := restored }.generationCounts := hgrown'
      exact (restoreGenerations_cons _ hrestored).trans (ih hgrown'')

/-- Putting back the counts of a snapshot. -/
theorem restoreGenerations_grown {before : EventRngHypothesisRegistry} {used : Finset PyStr}
    (howned : before.Owned used) (keys : List RngKey)
    (hgrown : Grown keys before.generationCounts registry.generationCounts) :
    restoreGenerations (before.snapshotGenerations keys) registry =
      (.ok (), { registry with generationCounts := before.generationCounts }) :=
  restoreGenerations_loop keys.dedup howned.counted
    (hgrown.mono fun _ hkey => List.mem_dedup.mpr hkey)

end EventRngHypothesisRegistry

namespace Instance

/-!
### Commits

A commit registers the id, takes the hypothesis and stores the record, or leaves
everything as it was.
-/

section Commit

/-- The registry after a branch took hold of its hypothesis. -/
def Holds (prepared : PreparedEvent κ β) (inst : Instance W Φ κ β)
    (registry : EventRngHypothesisRegistry) : Prop :=
  match prepared.book.eventRngPlan with
  | none => registry = inst.eventRngRegistry
  | some plan => inst.eventRngRegistry.commitBranch plan.hypothesisKey plan.overrideState
      prepared.spec.item.branchId = .ok registry

/-- An instance with one branch more. -/
def committedAs (prepared : PreparedEvent κ β) (registry : EventRngHypothesisRegistry)
    (inst : Instance W Φ κ β) : Instance W Φ κ β :=
  { inst with
    branchIds := ⟨insert prepared.spec.item.branchId inst.branchIds.everUsed⟩
    eventRngRegistry := registry
    bookkeeping := inst.bookkeeping.set prepared.spec.item.branchId prepared.book }

/-- A branch is committed, or nothing changes. -/
theorem commitPreparedBranch_after {inst : Instance W Φ κ β}
    (hroot : root ∈ inst.branchIds.everUsed) (prepared : PreparedEvent κ β) :
    (∃ error, commitPreparedBranch prepared inst = (.error error, inst)) ∨
    ∃ registry, prepared.spec.item.branchId ∉ inst.branchIds.everUsed ∧
      Holds prepared inst registry ∧
      commitPreparedBranch prepared inst = (.ok (), committedAs prepared registry inst) := by
  unfold commitPreparedBranch
  rw [Act.get_bind, Act.bind_apply, Act.ofExcept_apply]
  rcases hregister : inst.branchIds.register prepared.spec.item.branchId with error | branchIds
  · exact .inl ⟨error, rfl⟩
  · have hback := BranchIdRegistry.rollbackRegistration_register _ hroot hregister
    rcases BranchIdRegistry.register_eq_ok _ hregister with ⟨hnew, hids⟩
    -- The registration is made, so only the hypothesis can still fail.
    dsimp only
    rw [Act.modify_bind]
    have hhypothesis : ∀ s : Instance W Φ κ β, s.eventRngRegistry = inst.eventRngRegistry →
        (∃ error, commitHypothesis prepared.spec.item.branchId prepared.book.eventRngPlan s =
          (.error error, s)) ∨
        ∃ registry, Holds prepared inst registry ∧
          commitHypothesis prepared.spec.item.branchId prepared.book.eventRngPlan s =
            (.ok (), { s with eventRngRegistry := registry }) := by
      intro s hs
      unfold Holds
      cases prepared.book.eventRngPlan with
      | none => exact .inr ⟨s.eventRngRegistry, hs, rfl⟩
      | some plan =>
          unfold commitHypothesis
          dsimp only
          rw [Act.get_bind, Act.bind_apply, Act.ofExcept_apply, hs]
          cases inst.eventRngRegistry.commitBranch plan.hypothesisKey plan.overrideState
              prepared.spec.item.branchId with
          | error error => exact .inl ⟨error, rfl⟩
          | ok registry => exact .inr ⟨registry, rfl, rfl⟩
    rw [Act.bind_apply]
    unfold Act.onError
    rcases hhypothesis { inst with branchIds } rfl with ⟨error, hraises⟩ | ⟨registry, hholds, hok⟩
    · -- The registration is taken back.
      rw [hraises]
      refine .inl ⟨error, ?_⟩
      dsimp only [Act.modify_apply]
      rw [hback]
    -- Both are made, and so the branch is committed.
    · rw [hok]
      refine .inr ⟨registry, hnew, hholds, ?_⟩
      unfold committedAs
      rw [← hids]
      rfl

/-- Branches that were committed one after another. -/
inductive CommittedChain : Instance W Φ κ β → List (PreparedEvent κ β) → Instance W Φ κ β → Prop
  | nil (inst : Instance W Φ κ β) : CommittedChain inst [] inst
  | cons {inst after : Instance W Φ κ β} {prepared : PreparedEvent κ β}
      {rest : List (PreparedEvent κ β)} {registry : EventRngHypothesisRegistry}
      (hnew : prepared.spec.item.branchId ∉ inst.branchIds.everUsed)
      (hholds : Holds prepared inst registry)
      (hrest : CommittedChain (committedAs prepared registry inst) rest after) :
      CommittedChain inst (prepared :: rest) after

/-- After a commit one more branch is known. -/
theorem KnownSince.committedAs {used later : Finset PyStr} {inst : Instance W Φ κ β}
    (h : KnownSince used later inst) {prepared : PreparedEvent κ β}
    {registry : EventRngHypothesisRegistry} (hholds : Holds prepared inst registry) :
    KnownSince (insert prepared.spec.item.branchId used) later
      (committedAs prepared registry inst) := by
  have hsub : inst.branchIds.everUsed ⊆
      insert prepared.spec.item.branchId inst.branchIds.everUsed := Finset.subset_insert _ _
  refine ⟨Finset.mem_insert_of_mem h.root, Finset.insert_subset_insert _ h.known,
    h.registered.trans hsub, fun branchId book hbook => ?_,
    fun branchId point hpoint => hsub (h.points branchId point hpoint), ?_⟩
  · unfold Instance.committedAs at hbook ⊢
    dsimp only at hbook ⊢
    rw [Dict.get?_set] at hbook
    by_cases hbranch : branchId = prepared.spec.item.branchId
    · rw [hbranch]
      exact Finset.mem_insert_self _ _
    · rw [if_neg hbranch] at hbook
      exact hsub (h.books branchId book hbook)
  · unfold Holds at hholds
    refine show registry.Owned (insert prepared.spec.item.branchId used) from ?_
    cases hplan : prepared.book.eventRngPlan with
    | none =>
        rw [hplan] at hholds
        dsimp only at hholds
        rw [hholds]
        exact h.registry.mono (Finset.subset_insert _ _)
    | some plan =>
        rw [hplan] at hholds
        exact h.registry.commitBranch hholds

theorem known_committedAs {inst : Instance W Φ κ β} (h : Known inst)
    {prepared : PreparedEvent κ β} {registry : EventRngHypothesisRegistry}
    (hholds : Holds prepared inst registry) : Known (committedAs prepared registry inst) :=
  (KnownSince.committedAs h hholds).toKnown

theorem CommittedChain.known {inst after : Instance W Φ κ β} {committed : List (PreparedEvent κ β)}
    (hchain : CommittedChain inst committed after) (h : Known inst) : Known after := by
  induction hchain with
  | nil => exact h
  | cons _ hholds _ ih => exact ih (known_committedAs h hholds)

theorem CommittedChain.used_subset {inst after : Instance W Φ κ β}
    {committed : List (PreparedEvent κ β)} (hchain : CommittedChain inst committed after) :
    inst.branchIds.everUsed ⊆ after.branchIds.everUsed := by
  induction hchain with
  | nil => exact subset_rfl
  | cons _ _ _ ih => exact (Finset.subset_insert _ _).trans ih

/-- What was committed is known. -/
theorem CommittedChain.committed_known {inst after : Instance W Φ κ β}
    {committed : List (PreparedEvent κ β)} (hchain : CommittedChain inst committed after) :
    ∀ entry ∈ committed, entry.spec.item.branchId ∈ after.branchIds.everUsed := by
  induction hchain with
  | nil =>
      intro entry hentry
      cases hentry
  | cons _ _ hrest ih =>
      intro entry hentry
      rcases List.mem_cons.mp hentry with rfl | hentry
      · exact hrest.used_subset (Finset.mem_insert_self _ _)
      · exact ih entry hentry

/-- The branches up to the first that cannot be committed. -/
theorem commitPrefix_after {inst : Instance W Φ κ β} (h : Known inst)
    (prepared : List (PreparedEvent κ β)) :
    ∃ committed failure after, commitPrefix prepared inst = (.ok (committed, failure), after) ∧
      CommittedChain inst committed after ∧ (failure = none → committed = prepared) ∧
      ∀ entry ∈ committed, entry ∈ prepared := by
  induction prepared generalizing inst with
  | nil => exact ⟨[], none, inst, rfl, .nil inst, fun _ => rfl, fun _ h => h⟩
  | cons entry rest ih =>
      unfold commitPrefix
      rw [Act.bind_apply]
      unfold Act.catching
      rw [Act.bind_apply]
      rcases commitPreparedBranch_after h.root entry with ⟨error, hraises⟩ |
        ⟨registry, hnew, hholds, hok⟩
      · rw [hraises]
        refine ⟨[], some error, inst, rfl, .nil inst, fun hnone => ?_, fun _ hentry => ?_⟩
        · cases hnone
        · cases hentry
      · rcases ih (known_committedAs h hholds) with ⟨committed, failure, after, hprefix, hchain,
          hall, hmem⟩
        rw [hok]
        dsimp only [Act.pure_apply]
        rw [Act.bind_of_ok _ hprefix]
        refine ⟨entry :: committed, failure, after, rfl, .cons hnew hholds hchain, fun hnone => ?_,
          fun other hother => ?_⟩
        · rw [hall hnone]
        · rcases List.mem_cons.mp hother with rfl | hother
          · exact List.mem_cons_self
          · exact List.mem_cons_of_mem _ (hmem other hother)

/-- An instance with other counts of the generations. -/
def withGenerations (generationCounts : Dict RngKey Nat) (inst : Instance W Φ κ β) :
    Instance W Φ κ β :=
  { inst with eventRngRegistry := { inst.eventRngRegistry with generationCounts } }

/-- Rolling a branch back does not look at the counts. -/
theorem rollbackPreparedBranch_withGenerations (prepared : PreparedEvent κ β)
    (counts : Dict RngKey Nat) (inst : Instance W Φ κ β) :
    rollbackPreparedBranch prepared (withGenerations counts inst) =
      withGenerations counts (rollbackPreparedBranch prepared inst) := by
  unfold rollbackPreparedBranch withGenerations EventRngHypothesisRegistry.releaseBranch
  cases prepared.book.eventRngPlan with
  | none => rfl
  | some plan =>
      dsimp only
      cases inst.eventRngRegistry.branchRefsByKey.get? plan.hypothesisKey with
      | none => rfl
      | some refs => by_cases hempty : refs.erase prepared.spec.item.branchId = ∅ <;> simp [hempty]

/-- Rolling back the branch that was committed last restores all but the counts. -/
theorem rollback_committedAs {inst : Instance W Φ κ β} (h : Known inst)
    {prepared : PreparedEvent κ β} {registry : EventRngHypothesisRegistry}
    (hnew : prepared.spec.item.branchId ∉ inst.branchIds.everUsed)
    (hholds : Holds prepared inst registry) :
    rollbackPreparedBranch prepared (committedAs prepared registry inst) =
      withGenerations registry.generationCounts inst := by
  have hbook : inst.bookkeeping.get? prepared.spec.item.branchId = none :=
    Option.eq_none_iff_forall_ne_some.mpr fun book hbook => hnew (h.books _ book hbook)
  have hpoint : inst.decisionPoints.current.get? prepared.spec.item.branchId = none :=
    Option.eq_none_iff_forall_ne_some.mpr fun point hpoint => hnew (h.points _ point hpoint)
  have hids : (⟨insert prepared.spec.item.branchId inst.branchIds.everUsed⟩ :
      BranchIdRegistry).rollbackRegistration prepared.spec.item.branchId = inst.branchIds := by
    refine BranchIdRegistry.rollbackRegistration_register _ h.root ?_
    unfold BranchIdRegistry.register BranchIdRegistry.isKnown
    rw [if_neg (by simpa using hnew)]
  unfold rollbackPreparedBranch committedAs withGenerations DecisionPointRegistry.clear
  dsimp only
  rw [Dict.erase_set_of_none _ _ hbook, Dict.erase_of_none _ hpoint, hids]
  refine congrArg (fun eventRngRegistry => { inst with eventRngRegistry }) ?_
  unfold Holds at hholds
  cases hplan : prepared.book.eventRngPlan with
  | none =>
      rw [hplan] at hholds
      dsimp only at hholds ⊢
      rw [hholds]
  | some plan =>
      rw [hplan] at hholds
      exact EventRngHypothesisRegistry.releaseBranch_commitBranch h.registry hnew hholds

/-- Rolling back all branches, the last one first, restores all but the counts. -/
theorem rollback_committedChain {inst after : Instance W Φ κ β}
    {committed : List (PreparedEvent κ β)} (hchain : CommittedChain inst committed after)
    (h : Known inst) :
    committed.reverse.foldl (fun inst entry => rollbackPreparedBranch entry inst) after =
      withGenerations after.eventRngRegistry.generationCounts inst := by
  induction hchain with
  | nil => rfl
  | cons hnew hholds _ ih =>
      rw [List.reverse_cons, List.foldl_append, ih (known_committedAs h hholds)]
      dsimp only [List.foldl_cons, List.foldl_nil]
      rw [rollbackPreparedBranch_withGenerations, rollback_committedAs h hnew hholds]
      rfl

/-- The counts grow for the hypotheses of the batch. -/
theorem CommittedChain.grown {inst after : Instance W Φ κ β}
    {committed : List (PreparedEvent κ β)} (hchain : CommittedChain inst committed after) :
    EventRngHypothesisRegistry.Grown (batchKeys committed) inst.eventRngRegistry.generationCounts
      after.eventRngRegistry.generationCounts := by
  induction hchain with
  | nil => exact .refl _ _
  | @cons inst after prepared rest registry hnew hholds hrest ih =>
      have hrest' : EventRngHypothesisRegistry.Grown (batchKeys (prepared :: rest))
          registry.generationCounts after.eventRngRegistry.generationCounts := by
        refine ih.mono fun key hkey => ?_
        unfold batchKeys at hkey ⊢
        rw [List.filterMap_cons]
        split
        · exact hkey
        · exact List.mem_cons_of_mem _ hkey
      unfold Holds at hholds
      cases hplan : prepared.book.eventRngPlan with
      | none =>
          rw [hplan] at hholds
          dsimp only at hholds
          rwa [hholds] at hrest'
      | some plan =>
          rw [hplan] at hholds
          refine ((EventRngHypothesisRegistry.grown_commitBranch hholds).mono ?_).trans hrest'
          unfold batchKeys
          simp [hplan]

/-- A batch is committed, or nothing changes. -/
theorem commitBatch_after {inst : Instance W Φ κ β} (h : Known inst)
    (prepared : List (PreparedEvent κ β)) :
    (∃ error, commitBatch prepared inst = (.error error, inst)) ∨
    ∃ after, commitBatch prepared inst = (.ok (), after) ∧ CommittedChain inst prepared after := by
  rcases commitPrefix_after h prepared with ⟨committed, failure, after, hprefix, hchain, hall, hmem⟩
  -- Either every commit succeeded or one of them failed.
  unfold commitBatch
  rw [Act.get_bind, Act.bind_of_ok _ hprefix]
  cases failure with
  | none =>
      refine .inr ⟨after, rfl, ?_⟩
      rw [← hall rfl]
      exact hchain
  -- One failed: those before it are rolled back, newest first, and then the counts are restored.
  | some error =>
      refine .inl ⟨error, ?_⟩
      have hkeys : ∀ key ∈ batchKeys committed, key ∈ batchKeys prepared := by
        intro key hkey
        unfold batchKeys at hkey ⊢
        rcases List.mem_filterMap.mp hkey with ⟨entry, hentry, hplan⟩
        exact List.mem_filterMap.mpr ⟨entry, hmem entry hentry, hplan⟩
      -- All that grew are the counts of keys of the batch.
      have hgrown : EventRngHypothesisRegistry.Grown (batchKeys prepared)
          inst.eventRngRegistry.generationCounts { inst.eventRngRegistry with
            generationCounts := after.eventRngRegistry.generationCounts }.generationCounts :=
        hchain.grown.mono hkeys
      have hrestored := EventRngHypothesisRegistry.restoreGenerations_grown h.registry
        (batchKeys prepared) hgrown
      dsimp only
      rw [Act.modify_bind, rollback_committedChain hchain h]
      have hback : restoreGenerations (inst.eventRngRegistry.snapshotGenerations
          (batchKeys prepared)) (withGenerations after.eventRngRegistry.generationCounts inst) =
          (.ok (), inst) := by
        unfold restoreGenerations Act.zoom withGenerations
        dsimp only
        rw [hrestored]
      rw [Act.bind_of_ok _ hback]
      rfl

end Commit

/-!
### What is known

The ids of the records and of the registry were all used, in every state of a run.
-/

section Known

variable (env : RunEnv W Φ κ β) {used later : Finset PyStr}

theorem eventSettled_knownSince {branchId : PyStr} (hbranch : branchId ∈ later) :
    EventSettled (KnownSince used later : Instance W Φ κ β → Prop) branchId where
  fault _ h := h.faultEventBranch branchId
  terminal _ _ h := h.modifyBook branchId _
  issue _ h := ⟨h.root, h.known, h.registered, h.books,
    points_issue h.points (h.registered hbranch), h.registry⟩
  view _ _ h := h.modifyBook branchId _

/-- What follows once branches are known. -/
theorem known_of_knownSince {m : Op W Φ κ β α}
    (hm : ∀ used, Act.Keeps (KnownSince used later) m) :
    Act.Triple (fun inst => Known inst ∧ later ⊆ inst.branchIds.everUsed) m
      (fun _ => Known) fun _ => Known := by
  rintro inst ⟨h, hlater⟩
  have hafter := (hm inst.branchIds.everUsed).after { h with registered := hlater }
  generalize m inst = ended at hafter ⊢
  rcases ended with ⟨outcome, inst'⟩
  cases outcome <;> exact hafter.toKnown

/-- One branch at an event. -/
theorem emulateEventAction_known (item : EmulateItem) (simulationOptions : Option Fields) :
    Act.Keeps Known (emulateEventAction env item simulationOptions) := by
  refine emulateEventAction_triple env steady_known.framed.toIgnoresView (fun _ h => h)
    (J := fun prepared inst => Known inst ∧
      ({prepared.spec.item.branchId} : Finset PyStr) ⊆ inst.branchIds.everUsed) ?_
    (fun prepared => known_of_knownSince fun used => ?_) item simulationOptions
  · rintro inst prepared h - - _ rfl
    rcases commitPreparedBranch_after h.root prepared with ⟨error, hraises⟩ |
      ⟨registry, -, hholds, hok⟩
    · rw [hraises]
      exact h
    · rw [hok]
      exact ⟨known_committedAs h hholds,
        Finset.singleton_subset_iff.mpr (Finset.mem_insert_self _ _)⟩
  · exact (eventSettled_knownSince (Finset.mem_singleton_self _)).dispatchOne env
      (steady_knownSince used _).framed

/-- A batch at an event. -/
theorem beamEmulateEventBatch_known (items : List EmulateItem) :
    Act.Keeps Known (Beam.emulateEventBatch env items) := by
  refine emulateEventBatch_triple env steady_known.framed.toIgnoresView (fun _ h => h)
    (J := fun batch inst => Known inst ∧
      (batch.map fun entry => entry.spec.item.branchId).toFinset ⊆ inst.branchIds.everUsed) ?_
    (fun batch => known_of_knownSince fun used => ?_) items
  · rintro inst batch h - - - _ rfl
    rcases commitBatch_after h batch with ⟨error, hraises⟩ | ⟨after, hok, hchain⟩
    · rw [hraises]
      exact h
    · rw [hok]
      refine ⟨hchain.known h, fun branchId hbranch => ?_⟩
      rcases List.mem_map.mp (List.mem_toFinset.mp hbranch) with ⟨entry, hentry, rfl⟩
      exact hchain.committed_known entry hentry
  · exact keeps_dispatchPreparedBatch env (steady_knownSince used _).framed
      ((steady_knownSince used _).releaseBranch env) fun _ hentry => eventSettled_knownSince
        (List.mem_toFinset.mpr (List.mem_map_of_mem hentry))

/-- The records speak of known branches after every request. -/
theorem known_step (facade : Facade) (inst : Instance W Φ κ β) (request : Request)
    (h : Known inst) : Known (step env facade inst request).1 :=
  steady_known.step env (poison_known env) (emulateCombatPhaseActions_known env)
    (emulateEventAction_known env) (beamEmulateEventBatch_known env) facade inst request h

theorem known_of_constructs {config : Fields} {world : W} {access : GameAccess}
    {inst : Instance W Φ κ β} (h : Constructs env config world access inst) : Known inst := by
  have hblank : Known (blank world access : Instance W Φ κ β) := by
    refine ⟨Finset.mem_singleton_self _, subset_rfl, Finset.empty_subset _, ?_, ?_,
      EventRngHypothesisRegistry.owned_new⟩
    · intro branchId book hbook
      cases hbook
    · intro branchId point hpoint
      cases hpoint
  have hafter := (steady_known.framed.construct env config).after hblank
  rw [h] at hafter
  exact hafter

/-- In every state of every run: an event batch that fails before its branches are
    committed leaves the records, and when committing any of the branches fails,
    the records are what they were before the batch. -/
theorem event_batch_atomic {config : Fields} {world : W} {access : GameAccess}
    {start : Instance W Φ κ β} (hconstruct : Constructs env config world access start)
    (requests : List Request) (items : List EmulateItem) (simulationOptions : Option Fields)
    (hphase : (Run.final (step env .beam) start requests).combatPhase = none) :
    (¬ PreparesEventBatch env (Run.final (step env .beam) start requests) items simulationOptions →
      ∃ error after, Beam.emulateActions env items simulationOptions
          (Run.final (step env .beam) start requests) = (.error error, after) ∧
        SameRecords (Run.final (step env .beam) start requests) after) ∧
    ∀ views read, Beam.parentViews env items [] (Run.final (step env .beam) start requests) =
        (.ok views, read) →
      ∀ prepared error after, commitBatch prepared read = (.error error, after) →
        SameRecords (Run.final (step env .beam) start requests) after ∧
        (validateStopCondition simulationOptions = .ok () → items ≠ [] →
          items.length ≤ env.maxBranches → Beam.checkBatchIds items = .ok () →
          Beam.prepareBatch env read views items = .ok prepared →
          Beam.emulateActions env items simulationOptions
            (Run.final (step env .beam) start requests) = (.error error, after)) := by
  -- What is known of the instance holds in every state of the run.
  have hknown : Known (Run.final (step env .beam) start requests) :=
    Run.invariant (step env .beam) (known_step env .beam) start requests
      (known_of_constructs env hconstruct)
  generalize Run.final (step env .beam) start requests = inst at hphase hknown ⊢
  refine ⟨fun hbatch => ?_, fun views read hviews prepared error after hcommit => ⟨?_, ?_⟩⟩
  -- A batch that cannot be prepared commits nothing.
  · rcases beamEmulateActions_unprepared env hphase hbatch with ⟨error, after, hends, hkeeps⟩
    exact ⟨error, after, hends,
      hkeeps _ (sameRecords_ignoresView inst) ⟨rfl, rfl, rfl, rfl, rfl⟩⟩
  -- Reading the parents caches views only.
  · have hread := (steady_known.framed.parentViews env items []).after hknown
    have hsame := ((sameRecords_ignoresView inst).parentViews env items []).after
      ⟨rfl, rfl, rfl, rfl, rfl⟩
    rw [hviews] at hread hsame
    rcases commitBatch_after hread prepared with ⟨error', hraises⟩ | ⟨after', hok, -⟩
    · rw [hcommit] at hraises
      cases hraises
      exact hsame
    · rw [hcommit] at hok
      cases hok
  -- A batch that is prepared comes to its commits, and raises what they raise.
  · intro hstop hempty hsize hids hprepared
    unfold Beam.emulateActions Beam.emulateEventBatch
    have hchecked : checkBatchSize env items inst = (.ok (), inst) := by
      unfold checkBatchSize Act.raiseIf
      rw [if_neg hempty, if_neg (Nat.not_lt.mpr hsize)]
      rfl
    rw [hstop, hids, show Act.ofExcept (Except.ok () : Except PyError Unit) =
      (pure () : Op W Φ κ β Unit) from rfl, Act.pure_bind_apply, Act.bind_of_ok _ hchecked,
      Act.pure_bind_apply, Act.get_bind, if_neg (by simp [hphase]), Act.bind_of_ok _ hviews,
      Act.get_bind, hprepared, Act.bind_apply, Act.ofExcept_apply]
    dsimp only
    rw [Act.bind_of_error _ hcommit]

/-- The event, once it is entered. -/
def atEvent : Instance Nat Unit Unit Unit :=
  Run.final (step eventRun .beam) eventInstance [.call (.commitAction "d-root-000001" "7")]

/-- A branch of the event, and one with an action that there is not. -/
def firstItem : EmulateItem := ⟨"root", "b1", "d-root-000002", "9", 1⟩

/-- An item whose action the event does not offer. -/
def unknownActionItem : EmulateItem := ⟨"root", "b2", "d-root-000002", "8", 1⟩

/-- A batch with the second item is refused. A batch that registers the branch twice fails
    at the second time, and the first time is taken back. -/
theorem event_batch_atomic_small : Constructs eventRun [] 0 {} eventInstance ∧
    atEvent.combatPhase = none ∧
    (∃ error after, Beam.emulateActions eventRun [firstItem, unknownActionItem] none atEvent =
      (.error error, after) ∧ SameRecords atEvent after) ∧
    ∃ views read prepared, Beam.parentViews eventRun [firstItem] [] atEvent =
        (.ok views, read) ∧
      Beam.prepareBatch eventRun read views [firstItem] = .ok [prepared] ∧
      (∃ after, commitBatch [prepared] read = (.ok (), after)) ∧
      ∃ error after, commitBatch [prepared, prepared] read = (.error error, after) ∧
        SameRecords atEvent after := by
  -- The run reaches the event with the first request.
  have hconstruct : Constructs eventRun [] 0 {} eventInstance := rfl
  have hphase : atEvent.combatPhase = none := rfl
  -- The second item names an action the event does not have.
  have hrefused : ¬ PreparesEventBatch eventRun atEvent [firstItem, unknownActionItem] none := by
    rintro ⟨-, -, -, -, views, read, hviews, prepared, hprepared⟩
    have hread : (match Beam.parentViews eventRun [firstItem, unknownActionItem] [] atEvent with
        | (.ok views, read) =>
            (Beam.prepareBatch eventRun read views [firstItem, unknownActionItem]).isOk
        | (.error _, _) => false) = false := by decide +kernel
    rw [hviews] at hread
    dsimp only at hread
    rw [hprepared] at hread
    cases hread
  refine ⟨hconstruct, hphase, (event_batch_atomic eventRun hconstruct _
    [firstItem, unknownActionItem] none hphase).1 hrefused, ?_⟩
  -- One commit succeeds; the same branch committed twice fails at the second.
  have hviews : ∃ views read prepared, Beam.parentViews eventRun [firstItem] [] atEvent =
        (.ok views, read) ∧ Beam.prepareBatch eventRun read views [firstItem] = .ok [prepared] ∧
      (∃ after, commitBatch [prepared] read = (.ok (), after)) ∧
      ∃ error after, commitBatch [prepared, prepared] read = (.error error, after) :=
    ⟨_, _, _, rfl, rfl, ⟨_, rfl⟩, _, _, rfl⟩
  rcases hviews with ⟨views, read, prepared, hread, hprepared, honce, error, after, hcommit⟩
  exact ⟨views, read, prepared, hread, hprepared, honce, error, after, hcommit,
    ((event_batch_atomic eventRun hconstruct _ [firstItem] none hphase).2 views read hread
      _ error after hcommit).1⟩

end Known

end Instance

end WholeRun

end STS2RL
