import STS2RL.Api.Identifiers
import STS2RL.Core.Run
import Mathlib.Data.Finset.Card

/-!
# The Table of Hypotheses

What the table of hypothesis indices promises over any interleaving of requests
and of snapshots taken and gone back to, nested or not.

The table only grows between a snapshot and going back to it, so a table with
its outstanding snapshots is a chain of tables, each of which came from the next
older one by allocations. A request makes the newest one grow, a snapshot
repeats it, and going back cuts the chain. Everything else is read off a table
that came from the empty one by allocations: the indices held for a decision are
`0, 1, 2, …` in the order of their entries.

## Main definitions

* `indicesOf`: The indices held for a decision.
* `Contiguous`: They count from zero.
* `Journal`: A table with its outstanding snapshots.
* `Nested`: The chain of tables.

## Theorems

* `Allocated.contiguous`: The indices of an allocated table count from zero.
* `answered`: A request is answered with the index that is held from then on.
* `Journal.nested_final`: The chain in every run.
* `hypothesis_table_law`: The law of the table.
-/

namespace STS2RL

namespace Api

namespace RngHypothesisTable

variable {table : RngHypothesisTable}

/-- The indices held for a decision, oldest first. -/
def indicesOf (table : RngHypothesisTable) (pair : PyStr × PyStr) : List Nat :=
  (table.indexByKey.entries.filter fun entry => parentDecision entry.1 = pair).map Prod.snd

/-- The index a new key of the decision takes. -/
def nextIndex (table : RngHypothesisTable) (pair : PyStr × PyStr) : Nat :=
  (table.nextIndexByParentDecision.get? pair).getD 0

/-- The indices of each decision count from zero. -/
def Contiguous (table : RngHypothesisTable) : Prop :=
  ∀ pair, table.indicesOf pair = List.range (table.nextIndex pair)

theorem contiguous_new : Contiguous {} := fun _ => rfl

/-- A new key gets the next index. -/
theorem Contiguous.allocate (h : table.Contiguous) {key : RngKey}
    (hnew : table.indexByKey.get? key = none) : (table.allocate key).Contiguous := by
  intro pair
  have hold := h pair
  unfold indicesOf nextIndex RngHypothesisTable.allocate at *
  dsimp only at *
  rw [Dict.entries_set_of_none _ _ hnew, List.filter_append, List.map_append, hold, Dict.get?_set]
  by_cases hpair : pair = parentDecision key
  · -- The new entry takes the next index of its own decision.
    subst hpair
    rw [if_pos rfl, Option.getD_some, List.range_succ]
    simp
  · have hother : ¬ parentDecision key = pair := fun heq => hpair heq.symm
    rw [if_neg hpair]
    simp [hother]

theorem Allocated.contiguous {table' : RngHypothesisTable} (h : Allocated table table')
    (hcontiguous : table.Contiguous) : table'.Contiguous := by
  induction h with
  | refl => exact hcontiguous
  | allocate _ hnew ih => exact ih.allocate hnew

theorem Allocated.trans {first second third : RngHypothesisTable} (h : Allocated first second)
    (h' : Allocated second third) : Allocated first third := by
  induction h' with
  | refl => exact h
  | allocate _ hnew ih => exact ih.allocate hnew

/-- An index that is held stays. -/
theorem Allocated.get? {table' : RngHypothesisTable} (h : Allocated table table') {key : RngKey}
    {index : Nat} (hheld : table.indexByKey.get? key = some index) :
    table'.indexByKey.get? key = some index := by
  induction h with
  | refl => exact hheld
  | @allocate before new hbefore hnew ih =>
      have hne : key ≠ new := by
        rintro rfl
        rw [ih] at hnew
        cases hnew
      exact (Dict.get?_set_ne _ _ hne).trans ih

/-- The entries of a decision, by key. -/
theorem mem_entries_of_get? {key : RngKey} {index : Nat}
    (hheld : table.indexByKey.get? key = some index) :
    (key, index) ∈ table.indexByKey.entries.filter fun entry =>
      parentDecision entry.1 = parentDecision key :=
  List.mem_filter.mpr ⟨(Dict.mem_entries_iff _ _ _).mpr hheld, by simp⟩

/-- Two keys of one decision that hold the same index are the same key. -/
theorem Contiguous.inj (h : table.Contiguous) {key key' : RngKey} {index : Nat}
    (hpair : parentDecision key = parentDecision key')
    (hheld : table.indexByKey.get? key = some index)
    (hheld' : table.indexByKey.get? key' = some index) : key = key' := by
  have hnodup : (table.indicesOf (parentDecision key)).Nodup := by
    rw [h]
    exact List.nodup_range
  have hmem := mem_entries_of_get? hheld
  have hmem' := mem_entries_of_get? hheld'
  rw [← hpair] at hmem'
  exact congrArg Prod.fst (List.inj_on_of_nodup_map hnodup hmem hmem' rfl)

/-- The indices held for a decision are those below its next one. -/
theorem Contiguous.held_iff (h : table.Contiguous) (pair : PyStr × PyStr) (index : Nat) :
    (∃ key, parentDecision key = pair ∧ table.indexByKey.get? key = some index) ↔
      index < table.nextIndex pair := by
  rw [← List.mem_range, ← h pair]
  unfold indicesOf
  constructor
  · rintro ⟨key, rfl, hheld⟩
    exact List.mem_map.mpr ⟨(key, index), mem_entries_of_get? hheld, rfl⟩
  · intro hmem
    rcases List.mem_map.mp hmem with ⟨⟨key, held⟩, hentry, rfl⟩
    rcases List.mem_filter.mp hentry with ⟨hentry, hpair⟩
    exact ⟨key, of_decide_eq_true hpair, (Dict.mem_entries_iff _ _ _).mp hentry⟩

section Requests

/-- A request for the index of a key. -/
def request (table : RngHypothesisTable) (key : RngKey) : RngHypothesisTable × Nat :=
  ((table.hypothesisIndexFor key).2, (table.hypothesisIndexFor key).1)

theorem allocated_request (table : RngHypothesisTable) (key : RngKey) :
    Allocated table (table.request key).1 := Allocated.refl.hypothesisIndexFor key

theorem allocated_requests (table : RngHypothesisTable) (keys : List RngKey) :
    Allocated table (Run.final request table keys) :=
  Run.invariant request (fun before key h => h.trans (allocated_request before key)) table keys
    .refl

/-- The answer is the index that is held after the request. -/
theorem get?_request (table : RngHypothesisTable) (key : RngKey) :
    (table.request key).1.indexByKey.get? key = some (table.request key).2 := by
  unfold request hypothesisIndexFor
  cases hheld : table.indexByKey.get? key with
  | none => exact Dict.get?_set_self _ _ _
  | some index => exact hheld

/-- Each of the requests is answered with the index that is held after all of them. -/
theorem answered (table : RngHypothesisTable) (keys : List RngKey) (i : Nat) (key : RngKey)
    (hkey : keys[i]? = some key) : ∃ index, (Run.outputs request table keys)[i]? = some index ∧
      (Run.final request table keys).indexByKey.get? key = some index := by
  induction keys generalizing table i with
  | nil => cases hkey
  | cons first rest ih =>
      cases i with
      | zero =>
          have hfirst : first = key := Option.some.inj hkey
          rw [← hfirst]
          exact ⟨(table.request first).2, rfl,
            (allocated_requests (table.request first).1 rest).get? (get?_request table first)⟩
      | succ i => exact ih (table.request first).1 i hkey

/-- After requests to the empty table its keys are those that were requested. -/
theorem mem_keys_requests (keys : List RngKey) (key : RngKey) :
    key ∈ (Run.final request {} keys).indexByKey.keys ↔ key ∈ keys := by
  induction keys using List.reverseRecOn with
  | nil => exact Iff.rfl
  | append_singleton before last ih =>
      rw [Run.final_concat, List.mem_append, ← ih, List.mem_singleton]
      generalize Run.final request {} before = table
      unfold request hypothesisIndexFor
      cases hheld : table.indexByKey.get? last with
      | none =>
          dsimp only
          unfold RngHypothesisTable.allocate
          dsimp only
          rw [Dict.keys_set_of_none _ _ hheld, List.mem_append, List.mem_singleton]
      | some index =>
          have hlast : last ∈ table.indexByKey.keys :=
            (Dict.mem_keys_iff _ _).mpr ⟨index, hheld⟩
          constructor
          · exact Or.inl
          · rintro (hmem | rfl)
            · exact hmem
            · exact hlast

/-- The next index of a decision is the number of its keys that were requested. -/
theorem nextIndex_requests (keys : List RngKey) (pair : PyStr × PyStr) :
    (Run.final request {} keys).nextIndex pair =
      ((keys.filter fun key => parentDecision key = pair).toFinset).card := by
  have hcontiguous := (allocated_requests {} keys).contiguous contiguous_new
  have hlength : (Run.final request {} keys).nextIndex pair =
      ((Run.final request {} keys).indexByKey.keys.filter
        fun key => parentDecision key = pair).length := by
    have hindices := congrArg List.length (hcontiguous pair)
    rw [List.length_range] at hindices
    rw [← hindices]
    unfold indicesOf Dict.keys
    rw [List.filter_map, List.length_map, List.length_map]
    rfl
  have hnodup : ((Run.final request {} keys).indexByKey.keys.filter
      fun key => parentDecision key = pair).Nodup :=
    (Run.final request {} keys).indexByKey.nodup.filter _
  rw [hlength, ← List.toFinset_card_of_nodup hnodup]
  refine congrArg Finset.card (Finset.ext fun key => ?_)
  simp only [List.mem_toFinset, List.mem_filter, mem_keys_requests]

end Requests

section Journal

/-- A table with its outstanding snapshots, the newest first, each beside the table
    it was taken of. Only the marker is read when one is gone back to. -/
structure Journal where
  table : RngHypothesisTable := {}
  snapshots : List (Nat × RngHypothesisTable) := []

/-- A request, a snapshot, or going back to the snapshot before so many younger
    ones, which are given up. -/
inductive JournalOp where
  | request (key : RngKey)
  | snapshot
  | restore (younger : Nat)

/-- One operation. The answer is the index that was requested. -/
def Journal.step (journal : Journal) : JournalOp → Journal × Except PyError (Option Nat)
  | .request key =>
      ({ journal with table := (journal.table.request key).1 },
        .ok (some (journal.table.request key).2))
  | .snapshot =>
      ({ journal with
          snapshots := (journal.table.snapshot, journal.table) :: journal.snapshots }, .ok none)
  | .restore younger =>
      match journal.snapshots[younger]? with
      | none => (journal, .ok none)
      | some (marker, _) =>
          match journal.table.restore marker with
          | .error error => (journal, .error error)
          | .ok table => (⟨table, journal.snapshots.drop younger⟩, .ok none)

/-- The tables of a journal, the newest first. -/
def Journal.tables (journal : Journal) : List RngHypothesisTable :=
  journal.table :: journal.snapshots.map Prod.snd

/-- Each table came from the older ones by allocations, and the oldest from the
    empty one. -/
structure Journal.Nested (journal : Journal) : Prop where
  chain : journal.tables.Pairwise fun newer older => Allocated older newer
  origin : ∀ table ∈ journal.tables, Allocated {} table
  markers : ∀ entry ∈ journal.snapshots, entry.1 = entry.2.snapshot

namespace Journal

variable {journal : Journal}

theorem nested_new : Nested {} := by
  refine ⟨List.pairwise_singleton _ _, fun table hmem => ?_, fun entry hmem => ?_⟩
  · rw [List.mem_singleton.mp hmem]
    exact .refl
  · cases hmem

/-- Going back to an outstanding snapshot succeeds. -/
theorem Nested.restore (h : journal.Nested) {younger marker : Nat} {saved : RngHypothesisTable}
    (hsnapshot : journal.snapshots[younger]? = some (marker, saved)) :
    journal.table.restore marker = .ok saved := by
  have hmem := List.mem_of_getElem? hsnapshot
  have hsaved : saved ∈ journal.snapshots.map Prod.snd := List.mem_map.mpr ⟨_, hmem, rfl⟩
  have hallocated := List.rel_of_pairwise_cons h.chain hsaved
  have hcounted := (h.origin saved (List.mem_cons_of_mem _ hsaved)).counted counted_new
  rw [show marker = saved.snapshot from h.markers _ hmem]
  exact restore_allocated hallocated hcounted

/-- Each operation keeps the chain. -/
theorem Nested.step (h : journal.Nested) (op : JournalOp) : (journal.step op).1.Nested := by
  cases op with
  | request key =>
      have hgrown := allocated_request journal.table key
      refine ⟨List.pairwise_cons.mpr ⟨fun older holder => ?_, h.chain.tail⟩, fun table hmem => ?_,
        h.markers⟩
      · exact (List.rel_of_pairwise_cons h.chain holder).trans hgrown
      · rcases List.mem_cons.mp hmem with rfl | hmem
        · exact (h.origin _ List.mem_cons_self).trans hgrown
        · exact h.origin table (List.mem_cons_of_mem _ hmem)
  | snapshot =>
      refine ⟨List.pairwise_cons.mpr ⟨fun older holder => ?_, h.chain⟩, fun table hmem => ?_,
        fun entry hmem => ?_⟩
      · rcases List.mem_cons.mp holder with rfl | holder
        · exact .refl
        · exact List.rel_of_pairwise_cons h.chain holder
      · rcases List.mem_cons.mp hmem with rfl | hmem
        · exact h.origin _ List.mem_cons_self
        · exact h.origin table hmem
      · rcases List.mem_cons.mp hmem with rfl | hmem
        · rfl
        · exact h.markers entry hmem
  | restore younger =>
      unfold Journal.step
      dsimp only
      cases hsnapshot : journal.snapshots[younger]? with
      | none => exact h
      | some entry =>
          rcases entry with ⟨marker, saved⟩
          dsimp only
          rw [h.restore hsnapshot]
          -- The table that is gone back to is the newest of those that are left.
          have hdrop : journal.snapshots.drop younger =
              (marker, saved) :: journal.snapshots.drop (younger + 1) := by
            rcases List.getElem?_eq_some_iff.mp hsnapshot with ⟨hlt, hget⟩
            rw [List.drop_eq_getElem_cons hlt, hget]
          have hsub : (journal.snapshots.drop younger).map Prod.snd <:+ journal.tables :=
            ((List.drop_suffix _ _).map Prod.snd).trans (List.suffix_cons _ _)
          have hsaved : saved ∈ (journal.snapshots.drop younger).map Prod.snd := by
            rw [hdrop]
            exact List.mem_cons_self
          have hchain := h.chain.sublist hsub.sublist
          refine ⟨List.pairwise_cons.mpr ⟨fun older holder => ?_, hchain⟩, fun table hmem => ?_,
            fun entry hmem => h.markers entry (List.mem_of_mem_drop hmem)⟩
          · rw [hdrop] at holder hchain
            rcases List.mem_cons.mp holder with rfl | holder
            · exact .refl
            · exact List.rel_of_pairwise_cons hchain holder
          · rcases List.mem_cons.mp hmem with rfl | hmem
            · exact h.origin _ (hsub.mem hsaved)
            · exact h.origin table (hsub.mem hmem)

theorem nested_final (ops : List JournalOp) : (Run.final Journal.step {} ops).Nested :=
  Run.invariant (I := Nested) Journal.step (fun _ op h => Nested.step h op) {} ops nested_new

end Journal

/-- Requests to the empty table are answered with indices that count from zero for
    each decision. After any run of requests, snapshots and returns, the table holds
    for each decision the indices below its next one, and answers two requests for
    one decision alike exactly when they name the same hypothesis; and going back to
    any outstanding snapshot gives back the table it was taken of. -/
theorem hypothesis_table_law (ops : List JournalOp) :
    (∀ (keys : List RngKey) (pair : PyStr × PyStr) (index : Nat),
      (∃ (i : Nat) (key : RngKey), keys[i]? = some key ∧ parentDecision key = pair ∧
        (Run.outputs request {} keys)[i]? = some index) ↔
      index < ((keys.filter fun key => parentDecision key = pair).toFinset).card) ∧
    (∀ pair index, (∃ key, parentDecision key = pair ∧
        (Run.final Journal.step {} ops).table.indexByKey.get? key = some index) ↔
      index < (Run.final Journal.step {} ops).table.nextIndex pair) ∧
    (∀ (keys : List RngKey) (i j : Nat) key key' index index', keys[i]? = some key →
      keys[j]? = some key' → parentDecision key = parentDecision key' →
      (Run.outputs request (Run.final Journal.step {} ops).table keys)[i]? = some index →
      (Run.outputs request (Run.final Journal.step {} ops).table keys)[j]? = some index' →
      (index = index' ↔ key = key')) ∧
    ∀ (younger marker : Nat) (saved : RngHypothesisTable),
      (Run.final Journal.step {} ops).snapshots[younger]? = some (marker, saved) →
      (Run.final Journal.step {} ops).table.restore marker = .ok saved := by
  -- The journal's table continues the empty one, and so do its snapshots.
  have hnested := Journal.nested_final ops
  have horigin := hnested.origin _ List.mem_cons_self
  refine ⟨fun keys pair index => ?_, ?_, ?_, fun _ _ _ => hnested.restore⟩
  -- From the empty table the indices of a parent's decision are given out without a gap, one for
  -- each key.
  · have hcontiguous := (allocated_requests {} keys).contiguous contiguous_new
    rw [← nextIndex_requests, ← hcontiguous.held_iff]
    constructor
    · rintro ⟨i, key, hkey, hpair, hindex⟩
      rcases answered {} keys i key hkey with ⟨held, hanswer, hheld⟩
      rw [hindex] at hanswer
      cases hanswer
      exact ⟨key, hpair, hheld⟩
    · rintro ⟨key, hpair, hheld⟩
      have hmem := (mem_keys_requests keys key).mp ((Dict.mem_keys_iff _ _).mpr ⟨index, hheld⟩)
      rcases List.mem_iff_getElem?.mp hmem with ⟨i, hkey⟩
      rcases answered {} keys i key hkey with ⟨held, hanswer, hheld'⟩
      rw [hheld] at hheld'
      cases hheld'
      exact ⟨i, key, hkey, hpair, hanswer⟩
  -- So they are in every table of the journal.
  · exact fun pair index => (horigin.contiguous contiguous_new).held_iff pair index
  -- Two requests of one table get one index exactly if they are for one key.
  · intro keys i j key key' index index' hkey hkey' hpair hindex hindex'
    have hcontiguous := (horigin.trans (allocated_requests _ keys)).contiguous contiguous_new
    rcases answered _ keys i key hkey with ⟨held, hanswer, hheld⟩
    rcases answered _ keys j key' hkey' with ⟨held', hanswer', hheld'⟩
    rw [hindex] at hanswer
    rw [hindex'] at hanswer'
    cases hanswer
    cases hanswer'
    constructor
    · rintro rfl
      exact hcontiguous.inj hpair hheld hheld'
    · rintro rfl
      rw [hheld] at hheld'
      exact Option.some.inj hheld'

end Journal

end RngHypothesisTable

end Api

end STS2RL
