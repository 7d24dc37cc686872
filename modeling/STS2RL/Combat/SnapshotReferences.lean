import STS2RL.Combat.SnapshotWire
import STS2RL.Core.Tally
import Mathlib.Data.List.Sort

/-!
# References Inside a Snapshot

Every entity of a snapshot has an instance id, and powers, streams and entries of
the history name entities by theirs. A snapshot may be restored only where no two
entities share an id and every id that is named is that of an entity. What an entry
of the history names is found by walking its free-form fields: a member whose name
ends in `InstanceId` names one entity, one whose name ends in `InstanceIds` several.

The walk is compared with the relation it is meant to compute (`mem_walk_iff`), and
the verdict with the two properties (`restoreInputEligibility_iff`). A hypothesis
moves cards and gives none another id, so the verdict on a derived snapshot is that
on its root (`validate_withHypothesis`).

## Main definitions

* `walkInstanceIdRefs`, `Refers`: What a value names, found and defined.
* `definedInstanceIds`, `directReferences`: The ids of the entities, and those named
  outside of the history.
* `IdentifiedSnapshot`: A snapshot whose ids are texts, or absent.
* `validateSnapshotReferences`, `restoreInputEligibility`: The report and the verdict.

## Theorems

* `mem_walk_iff`: The walk finds what a value names.
* `restoreInputEligibility_iff`: When a snapshot may be restored.
* `derived_eligibility`: A derived snapshot may be restored when its root may.
-/

namespace STS2RL

namespace PyStr

/-- Concatenation. -/
def concat : PyStr → PyStr → PyStr
  | text s, text t => text (s ++ t)
  | text s, lone before code rest => lone (s ++ before) code rest
  | lone before code rest, t => lone before code (rest.concat t)

/-- `text.endswith(suffix)`. -/
def endsWith (s : PyStr) (suffix : String) : Bool := (text suffix).codes.isSuffixOf s.codes

end PyStr

namespace Combat

namespace Wire

open Api (Fields jsonRepr typeName isNamed)

/-!
### The walk

The references of a history are found by walking through its fields: a member names cards
by its own name, or is walked into.
-/

section Walk

/-- The texts of a list. -/
def textsOf (xs : List Json) : List PyStr :=
  xs.filterMap fun
    | .str s => some s
    | _ => none

/-- The ids a member names by itself, where its name says that it names any. -/
def namedBy (key : PyStr) : Json → Option (List PyStr)
  | .str s => if key.endsWith "InstanceId" then some [s] else none
  | .list xs => if key.endsWith "InstanceIds" then some (textsOf xs) else none
  | _ => none

mutual

/-- `_walk_instance_id_refs`: field paths and the ids found there. -/
def walkInstanceIdRefs (path : PyStr) : Json → List (PyStr × PyStr)
  | .obj fields => walkMembers path fields
  | .list xs => walkItems path 0 xs
  | _ => []

/-- The references among the members of an object, in order. -/
def walkMembers (path : PyStr) : Fields → List (PyStr × PyStr)
  | [] => []
  | (key, value) :: rest =>
      let subPath := if path.isEmpty then key else path.concat ((PyStr.text ".").concat key)
      (match namedBy key value with
        | some ids => ids.map fun id => (subPath, id)
        | none => walkInstanceIdRefs subPath value) ++ walkMembers path rest

/-- The references among the items of a list, in order. -/
def walkItems (path : PyStr) (i : Nat) : List Json → List (PyStr × PyStr)
  | [] => []
  | item :: rest =>
      walkInstanceIdRefs (path.append ("[" ++ toString i ++ "]")) item ++
        walkItems path (i + 1) rest

end

/-- A value names an entity: in a member that names some, or further inside. -/
inductive Refers : Json → PyStr → Prop where
  | named {fields : Fields} {key : PyStr} {value : Json} {ids : List PyStr} {id : PyStr}
      (hmem : (key, value) ∈ fields) (hids : namedBy key value = some ids) (hid : id ∈ ids) :
      Refers (.obj fields) id
  | member {fields : Fields} {key : PyStr} {value : Json} {id : PyStr}
      (hmem : (key, value) ∈ fields) (hnone : namedBy key value = none) (h : Refers value id) :
      Refers (.obj fields) id
  | item {xs : List Json} {x : Json} {id : PyStr} (hmem : x ∈ xs) (h : Refers x id) :
      Refers (.list xs) id

mutual

theorem refers_of_mem_walk {path : PyStr} {id : PyStr} : (value : Json) →
    id ∈ (walkInstanceIdRefs path value).map Prod.snd → Refers value id
  | .obj fields, h => by
      rcases refers_of_mem_walkMembers fields h with ⟨key, value, hmem, hrest⟩
      rcases hrest with ⟨ids, hids, hid⟩ | ⟨hnone, hinside⟩
      · exact .named hmem hids hid
      · exact .member hmem hnone hinside
  | .list xs, h => by
      rcases refers_of_mem_walkItems xs h with ⟨x, hmem, hinside⟩
      exact .item hmem hinside
  | .null, h | .bool _, h | .int _, h | .float _, h | .str _, h => by cases h

/-- What the walk finds in an object is named by a member, or below one. -/
theorem refers_of_mem_walkMembers {path : PyStr} {id : PyStr} : (fields : Fields) →
    id ∈ (walkMembers path fields).map Prod.snd →
    ∃ key value, (key, value) ∈ fields ∧
      ((∃ ids, namedBy key value = some ids ∧ id ∈ ids) ∨
        (namedBy key value = none ∧ Refers value id))
  | [], h => by cases h
  | (key, value) :: rest, h => by
      rw [walkMembers, List.map_append, List.mem_append] at h
      rcases h with h | h
      · refine ⟨key, value, List.mem_cons_self, ?_⟩
        cases hnamed : namedBy key value with
        | some ids =>
            rw [hnamed] at h
            refine .inl ⟨ids, rfl, ?_⟩
            simpa [Function.comp_def] using h
        | none =>
            rw [hnamed] at h
            exact .inr ⟨rfl, refers_of_mem_walk value h⟩
      · rcases refers_of_mem_walkMembers rest h with ⟨key', value', hmem, hrest⟩
        exact ⟨key', value', List.mem_cons_of_mem _ hmem, hrest⟩

theorem refers_of_mem_walkItems {path : PyStr} {i : Nat} {id : PyStr} : (xs : List Json) →
    id ∈ (walkItems path i xs).map Prod.snd → ∃ x ∈ xs, Refers x id
  | [], h => by cases h
  | x :: xs, h => by
      rw [walkItems, List.map_append, List.mem_append] at h
      rcases h with h | h
      · exact ⟨x, List.mem_cons_self, refers_of_mem_walk x h⟩
      · rcases refers_of_mem_walkItems xs h with ⟨x', hmem, hinside⟩
        exact ⟨x', List.mem_cons_of_mem _ hmem, hinside⟩

end

/-- What a member names is found. -/
theorem mem_walkMembers_of_mem {path : PyStr} {fields : Fields} {key : PyStr} {value : Json}
    {id : PyStr} (hmem : (key, value) ∈ fields)
    (h : (∃ ids, namedBy key value = some ids ∧ id ∈ ids) ∨
      (namedBy key value = none ∧ ∀ path, id ∈ (walkInstanceIdRefs path value).map Prod.snd)) :
    id ∈ (walkMembers path fields).map Prod.snd := by
  induction fields with
  | nil => cases hmem
  | cons field rest ih =>
      rcases field with ⟨key', value'⟩
      rw [walkMembers, List.map_append, List.mem_append]
      rcases List.mem_cons.mp hmem with heq | hrest
      · cases heq
        left
        rcases h with ⟨ids, hids, hid⟩ | ⟨hnone, hinside⟩
        · rw [hids]
          simpa [Function.comp_def] using hid
        · rw [hnone]
          exact hinside _
      · exact .inr (ih hrest)

theorem mem_walkItems_of_mem {path : PyStr} {xs : List Json} {x : Json} {id : PyStr}
    (hmem : x ∈ xs) (h : ∀ path, id ∈ (walkInstanceIdRefs path x).map Prod.snd) (i : Nat) :
    id ∈ (walkItems path i xs).map Prod.snd := by
  induction xs generalizing i with
  | nil => cases hmem
  | cons x' xs ih =>
      rw [walkItems, List.map_append, List.mem_append]
      rcases List.mem_cons.mp hmem with rfl | hrest
      · exact .inl (h _)
      · exact .inr (ih hrest (i + 1))

theorem mem_walk_of_refers {value : Json} {id : PyStr} (h : Refers value id) (path : PyStr) :
    id ∈ (walkInstanceIdRefs path value).map Prod.snd := by
  induction h generalizing path with
  | named hmem hids hid => exact mem_walkMembers_of_mem hmem (.inl ⟨_, hids, hid⟩)
  | member hmem hnone _ ih => exact mem_walkMembers_of_mem hmem (.inr ⟨hnone, ih⟩)
  | item hmem _ ih => exact mem_walkItems_of_mem hmem ih 0

/-- The walk finds what a value names, wherever it starts. -/
theorem mem_walk_iff (value : Json) (path id : PyStr) :
    id ∈ (walkInstanceIdRefs path value).map Prod.snd ↔ Refers value id :=
  ⟨refers_of_mem_walk value, fun h => mem_walk_of_refers h path⟩

end Walk

/-!
### The report

Which ids a snapshot defines, which it refers to, and what is said of those that it refers
to and does not define.
-/

section Report

/-- Why a reference dangles. -/
inductive Cause where
  | sourceLiveStateInconsistency
  | captureBug
  deriving DecidableEq

/-- A reference to an id that no entity has. -/
structure DanglingReference where
  fieldPath : PyStr
  referencedInstanceId : PyStr
  entryType : Json
  cause : Cause
  deriving DecidableEq

/-- `SnapshotReferenceReport`. -/
structure SnapshotReferenceReport where
  duplicateInstanceIds : List PyStr
  danglingReferences : List DanglingReference
  deriving DecidableEq

/-- `has_issues`. -/
def SnapshotReferenceReport.hasIssues (report : SnapshotReferenceReport) : Bool :=
  !report.duplicateInstanceIds.isEmpty || !report.danglingReferences.isEmpty

/-- Ids are declared as texts or `None`. -/
def IsId : Json → Prop
  | .null | .str _ => True
  | _ => False

instance : DecidablePred IsId := fun value =>
  match value with
  | .null | .str _ => isTrue trivial
  | .bool _ | .int _ | .float _ | .list _ | .obj _ => isFalse False.elim

/-- The ids of the entities, in the order of `_collect_known_instance_ids`. -/
def definedInstanceIds (s : CombatStateSnapshot) : List Json :=
  let p := s.player
  [p.instanceId, p.creatureInstanceId] ++ p.cardInstances.map (·.instanceId) ++
    p.relics.map (·.instanceId) ++ p.powers.map (·.instanceId) ++
    (p.potions.filterMap id).map (·.instanceId) ++ p.orbs.map (·.instanceId) ++
    p.pets.flatMap (fun pet => pet.instanceId :: pet.powers.map (·.instanceId)) ++
    s.enemies.flatMap fun e => e.instanceId :: e.powers.map (·.instanceId)

/-- The references of a power. -/
def powerReferences (path : String) (power : PowerSnapshot) : List (String × Json) :=
  [(path ++ ".OwnerInstanceId", power.ownerInstanceId),
    (path ++ ".ApplierInstanceId", power.applierInstanceId),
    (path ++ ".TargetInstanceId", power.targetInstanceId),
    (path ++ ".AssociatedCardInstanceId", power.associatedCardInstanceId)]

/-- `f"{path}[{i}]"`. -/
def indexed (path : String) (i : Nat) : String := path ++ "[" ++ toString i ++ "]"

/-- The references of a creature's powers. -/
def powersReferences (path : String) (powers : List PowerSnapshot) : List (String × Json) :=
  powers.zipIdx.flatMap fun power => powerReferences (indexed path power.2) power.1

/-- The references outside of the history. -/
def directReferences (s : CombatStateSnapshot) : List (String × Json) :=
  powersReferences "Player.Powers" s.player.powers ++
    s.player.pets.zipIdx.flatMap (fun pet =>
      (indexed "Player.Pets" pet.2 ++ ".OwnerInstanceId", pet.1.ownerInstanceId) ::
        powersReferences (indexed "Player.Pets" pet.2 ++ ".Powers") pet.1.powers) ++
    s.enemies.zipIdx.flatMap (fun e =>
      powersReferences (indexed "Enemies" e.2 ++ ".Powers") e.1.powers) ++
    s.rng.monsterRng.zipIdx.map (fun stream =>
      (indexed "Rng.MonsterRng" stream.2 ++ ".OwnerInstanceId", stream.1.ownerInstanceId)) ++
    s.rng.playerRng.zipIdx.map fun stream =>
      (indexed "Rng.PlayerRng" stream.2 ++ ".OwnerInstanceId", stream.1.ownerInstanceId)

/-- A snapshot whose ids are of the type they are declared with. -/
structure IdentifiedSnapshot extends CombatStateSnapshot where
  defined : ∀ id ∈ definedInstanceIds toCombatStateSnapshot, IsId id
  actors : ∀ entry ∈ toCombatStateSnapshot.combatHistory.entries, IsId entry.actorInstanceId
  direct : ∀ reference ∈ directReferences toCombatStateSnapshot, IsId reference.2

/-- The ids that are not `None`, each with the number of places that define it:
    `_collect_known_instance_ids`. -/
def collectKnownInstanceIds (s : IdentifiedSnapshot) : List (PyStr × Nat) :=
  Tally.tally id (textsOf (definedInstanceIds s.toCombatStateSnapshot))

/-- `instance_id in known_ids`. -/
def isKnown (known : List (PyStr × Nat)) (id : PyStr) : Bool := known.any fun entry => entry.1 = id

/-- `sorted(k for k, paths in known.items() if len(paths) > 1)`. -/
def duplicatesOf (known : List (PyStr × Nat)) : List PyStr :=
  ((known.filter fun entry => 1 < entry.2).map Prod.fst).insertionSort fun a b => a.codes ≤ b.codes

/-- `_CONFIRMED_SOURCE_LIVE_STATE_INCONSISTENCY_ENTRY_TYPES`. -/
def confirmedEntryTypes : List Json :=
  [.str (.text "CardDrawnEntry"), .str (.text "CardGeneratedEntry")]

/-- `_cause_for`. -/
def causeFor (entryType : Json) : Except PyException Cause :=
  match entryType with
  | .list _ | .obj _ => .error ⟨"TypeError", "unhashable type: '" ++ typeName entryType ++ "'"⟩
  | entryType => .ok (if entryType ∈ confirmedEntryTypes then .sourceLiveStateInconsistency
      else .captureBug)

/-- What an entry of the history names: its actor, then what its fields name. -/
def entryReferences (path : String) (entry : CombatHistoryEntrySnapshot) : List (PyStr × PyStr) :=
  (textsOf [entry.actorInstanceId]).map (fun id => (.text (path ++ ".ActorInstanceId"), id)) ++
    walkInstanceIdRefs (.text (path ++ ".Fields")) entry.fields

/-- The dangling references of a history entry. -/
def danglingOfEntry (known : List (PyStr × Nat)) (entry : CombatHistoryEntrySnapshot × Nat) :
    Except PyException (List DanglingReference) :=
  let references := entryReferences (indexed "CombatHistory.Entries" entry.2) entry.1
  (references.filter fun reference => !isKnown known reference.2).mapM fun reference => do
    let cause ← causeFor entry.1.entryType
    pure ⟨reference.1, reference.2, entry.1.entryType, cause⟩

/-- `_check_direct`. -/
def danglingDirect (known : List (PyStr × Nat)) (reference : String × Json) :
    List DanglingReference :=
  ((textsOf [reference.2]).filter fun id => !isKnown known id).map fun id =>
    ⟨.text reference.1, id, .null, .captureBug⟩

/-- `validate_snapshot_references`. -/
def validateSnapshotReferences (s : IdentifiedSnapshot) :
    Except PyException SnapshotReferenceReport := do
  let known := collectKnownInstanceIds s
  let history ← s.combatHistory.entries.zipIdx.mapM (danglingOfEntry known)
  pure ⟨duplicatesOf known,
    history.flatten ++ (directReferences s.toCombatStateSnapshot).flatMap (danglingDirect known)⟩

/-- `capture_boundary_is_restore_eligible`. -/
def captureBoundaryIsRestoreEligible (boundary : CaptureBoundary) : Bool :=
  boundary = .normalPlayerDecision

/-- `restore_input_eligibility`. -/
def restoreInputEligibility (s : IdentifiedSnapshot) :
    Except PyException (Bool × List String) := do
  let report ← validateSnapshotReferences s
  let reasons :=
    (if s.metadata.completeness = .complete then [] else
      ["completeness='" ++ s.metadata.completeness.text ++
        "' (Emulator verdict, not 'complete')"]) ++
    (if captureBoundaryIsRestoreEligible s.metadata.captureBoundary then [] else
      ["capture_boundary='" ++ s.metadata.captureBoundary.text ++ "' is not Restore-eligible"]) ++
    (if report.duplicateInstanceIds.isEmpty then [] else
      ["duplicate_instance_ids=" ++ jsonRepr (.list (report.duplicateInstanceIds.map .str))]) ++
    (if report.danglingReferences.isEmpty then [] else
      ["dangling_references=" ++ toString report.danglingReferences.length ++
        " (see validate_snapshot_references for detail)"])
  pure (reasons.isEmpty, reasons)

end Report

/-!
### What the report says

The report has a reference that dangles for exactly the ids that are named and not there.
-/

section Verdict

variable {s : IdentifiedSnapshot} {report : SnapshotReferenceReport}

/-- The ids of the entities. -/
def entityIds (s : IdentifiedSnapshot) : List PyStr :=
  textsOf (definedInstanceIds s.toCombatStateSnapshot)

/-- An id is named in the snapshot: by the history, or by a power, a pet or a stream. -/
def Names (s : IdentifiedSnapshot) (id : PyStr) : Prop :=
  (∃ entry ∈ s.combatHistory.entries, entry.actorInstanceId = .str id ∨ Refers entry.fields id) ∨
    ∃ reference ∈ directReferences s.toCombatStateSnapshot, reference.2 = .str id

theorem mem_textsOf {values : List Json} {id' : PyStr} :
    id' ∈ textsOf values ↔ .str id' ∈ values := by
  rw [textsOf, List.mem_filterMap]
  constructor
  · rintro ⟨value, hmem, hvalue⟩
    cases value with
    | str t =>
        cases hvalue
        exact hmem
    | null | bool _ | int _ | float _ | list _ | obj _ => cases hvalue
  · exact fun hmem => ⟨_, hmem, rfl⟩

/-- A known id is defined somewhere, as often as is counted. -/
theorem mem_known_iff {id' : PyStr} {n : Nat} :
    (id', n) ∈ collectKnownInstanceIds s ↔ id' ∈ entityIds s ∧ n = (entityIds s).count id' := by
  have hkeys := @Tally.mem_tally_keys_iff _ _ _ id (entityIds s) id' n
  simpa [collectKnownInstanceIds, entityIds] using hkeys

theorem isKnown_iff (id' : PyStr) :
    isKnown (collectKnownInstanceIds s) id' = true ↔ id' ∈ entityIds s := by
  rw [isKnown, List.any_eq_true]
  constructor
  · rintro ⟨⟨t, n⟩, hmem, heq⟩
    rw [decide_eq_true_eq] at heq
    rw [← heq]
    exact (mem_known_iff.mp hmem).1
  · exact fun hmem => ⟨_, mem_known_iff.mpr ⟨hmem, rfl⟩, decide_eq_true rfl⟩

/-- The duplicates reported are the ids that two entities share. -/
theorem mem_duplicatesOf (id' : PyStr) :
    id' ∈ duplicatesOf (collectKnownInstanceIds s) ↔ 1 < (entityIds s).count id' := by
  rw [duplicatesOf, List.mem_insertionSort, List.mem_map]
  constructor
  · rintro ⟨⟨t, n⟩, hmem, rfl⟩
    rw [List.mem_filter, decide_eq_true_eq] at hmem
    rw [← (mem_known_iff.mp hmem.1).2]
    exact hmem.2
  · intro hcount
    have hmem : id' ∈ entityIds s := List.count_pos_iff.mp (by omega)
    exact ⟨(id', (entityIds s).count id'), List.mem_filter.mpr
      ⟨mem_known_iff.mpr ⟨hmem, rfl⟩, decide_eq_true hcount⟩, rfl⟩

theorem duplicatesOf_eq_nil :
    duplicatesOf (collectKnownInstanceIds s) = [] ↔ (entityIds s).Nodup := by
  rw [List.nodup_iff_count_le_one, List.eq_nil_iff_forall_not_mem]
  exact forall_congr' fun id' => by rw [mem_duplicatesOf, not_lt]

theorem mem_entryReferences (path : String) (entry : CombatHistoryEntrySnapshot) (id' : PyStr) :
    id' ∈ (entryReferences path entry).map Prod.snd ↔
      entry.actorInstanceId = .str id' ∨ Refers entry.fields id' := by
  have hactor : ((textsOf [entry.actorInstanceId]).map fun id =>
      (PyStr.text (path ++ ".ActorInstanceId"), id)).map Prod.snd =
        textsOf [entry.actorInstanceId] := by
    rw [List.map_map]
    exact List.map_id _
  rw [entryReferences, List.map_append, List.mem_append, mem_walk_iff, hactor, mem_textsOf,
    List.mem_singleton, eq_comm]

/-- The same of one entry of the history. -/
theorem danglingOfEntry_iff {entry : CombatHistoryEntrySnapshot × Nat}
    {dangling : List DanglingReference}
    (h : danglingOfEntry (collectKnownInstanceIds s) entry = .ok dangling) (id' : PyStr) :
    (∃ d ∈ dangling, d.referencedInstanceId = id') ↔
      (entry.1.actorInstanceId = .str id' ∨ Refers entry.1.fields id') ∧ id' ∉ entityIds s := by
  have hids := Except.mapM_map_eq _ DanglingReference.referencedInstanceId Prod.snd _ _ h
    fun reference d hd => by
      rcases (Except.bind_eq_ok _ _ _).mp hd with ⟨cause, -, hpure⟩
      cases hpure
      rfl
  rw [← mem_entryReferences (indexed "CombatHistory.Entries" entry.2), ← isKnown_iff,
    ← List.mem_map, hids, List.mem_map, List.mem_map, Bool.not_eq_true]
  constructor
  · rintro ⟨reference, hmem, rfl⟩
    rw [List.mem_filter, Bool.not_eq_true'] at hmem
    exact ⟨⟨reference, hmem.1, rfl⟩, hmem.2⟩
  · rintro ⟨⟨reference, hmem, rfl⟩, hunknown⟩
    exact ⟨reference, List.mem_filter.mpr ⟨hmem, by rw [hunknown]; rfl⟩, rfl⟩

theorem danglingDirect_iff (reference : String × Json) (id' : PyStr) :
    (∃ d ∈ danglingDirect (collectKnownInstanceIds s) reference, d.referencedInstanceId = id') ↔
      reference.2 = .str id' ∧ id' ∉ entityIds s := by
  have hmem : id' ∈ textsOf [reference.2] ↔ reference.2 = .str id' := by
    rw [mem_textsOf, List.mem_singleton, eq_comm]
  rw [← hmem, ← isKnown_iff, Bool.not_eq_true]
  constructor
  · rintro ⟨d, hd, rfl⟩
    rcases List.mem_map.mp hd with ⟨id, hid, rfl⟩
    rw [List.mem_filter, Bool.not_eq_true'] at hid
    exact hid
  · rintro ⟨hid, hunknown⟩
    exact ⟨_, List.mem_map.mpr ⟨id', List.mem_filter.mpr ⟨hid, by rw [hunknown]; rfl⟩, rfl⟩, rfl⟩

/-- The ids of the dangling references reported are those named that no entity has. -/
theorem dangling_iff (h : validateSnapshotReferences s = .ok report) (id' : PyStr) :
    (∃ d ∈ report.danglingReferences, d.referencedInstanceId = id') ↔
      Names s id' ∧ id' ∉ entityIds s := by
  rcases (Except.bind_eq_ok _ _ _).mp h with ⟨history, hhistory, hpure⟩
  cases hpure
  have hentries := Except.exists_mem_flatten_mapM hhistory
    fun entry _ _ hentry => danglingOfEntry_iff hentry id'
  have hindexed : (∃ entry ∈ s.combatHistory.entries.zipIdx,
      (entry.1.actorInstanceId = .str id' ∨ Refers entry.1.fields id') ∧ id' ∉ entityIds s) ↔
      (∃ entry ∈ s.combatHistory.entries,
        entry.actorInstanceId = .str id' ∨ Refers entry.fields id') ∧ id' ∉ entityIds s := by
    constructor
    · rintro ⟨entry, hmem, hnames, hunknown⟩
      exact ⟨⟨entry.1, List.fst_mem_of_mem_zipIdx hmem, hnames⟩, hunknown⟩
    · rintro ⟨⟨entry, hmem, hnames⟩, hunknown⟩
      rcases List.mem_iff_getElem?.mp hmem with ⟨i, hi⟩
      exact ⟨(entry, i), List.mem_zipIdx_iff_getElem?.mpr hi, hnames, hunknown⟩
  -- The references that are read directly: the one that dangles is found under its id.
  have hdirect : (∃ d ∈ (directReferences s.toCombatStateSnapshot).flatMap
      (danglingDirect (collectKnownInstanceIds s)), d.referencedInstanceId = id') ↔
      (∃ reference ∈ directReferences s.toCombatStateSnapshot, reference.2 = .str id') ∧
        id' ∉ entityIds s := by
    constructor
    · rintro ⟨d, hd, heq⟩
      rcases List.mem_flatMap.mp hd with ⟨reference, hreference, hmem⟩
      have hnamed := (danglingDirect_iff reference id').mp ⟨d, hmem, heq⟩
      exact ⟨⟨reference, hreference, hnamed.1⟩, hnamed.2⟩
    · rintro ⟨⟨reference, hreference, hnamed⟩, hunknown⟩
      rcases (danglingDirect_iff reference id').mpr ⟨hnamed, hunknown⟩ with ⟨d, hmem, heq⟩
      exact ⟨d, List.mem_flatMap.mpr ⟨reference, hreference, hmem⟩, heq⟩
  -- A dangling reference is of the history or a direct one.
  have hboth : (∃ d ∈ history.flatten ++ (directReferences s.toCombatStateSnapshot).flatMap
      (danglingDirect (collectKnownInstanceIds s)), d.referencedInstanceId = id') ↔
      (∃ d ∈ history.flatten, d.referencedInstanceId = id') ∨
        ∃ d ∈ (directReferences s.toCombatStateSnapshot).flatMap
          (danglingDirect (collectKnownInstanceIds s)), d.referencedInstanceId = id' := by
    simp only [List.mem_append, or_and_right, exists_or]
  rw [hboth, hentries.trans hindexed, hdirect, Names, or_and_right]

/-- What a report says: its duplicates are the ids that two entities share, its
    dangling references name what no entity is, and it finds nothing exactly where
    the ids are distinct and all that is named is there. -/
theorem report_exact (h : validateSnapshotReferences s = .ok report) :
    (∀ id', id' ∈ report.duplicateInstanceIds ↔ 1 < (entityIds s).count id') ∧
    (∀ id', (∃ d ∈ report.danglingReferences, d.referencedInstanceId = id') ↔
      Names s id' ∧ id' ∉ entityIds s) ∧
    (report.hasIssues = false ↔
      (entityIds s).Nodup ∧ ∀ id', Names s id' → id' ∈ entityIds s) := by
  have hduplicates : report.duplicateInstanceIds = duplicatesOf (collectKnownInstanceIds s) := by
    rcases (Except.bind_eq_ok _ _ _).mp h with ⟨history, -, hpure⟩
    cases hpure
    rfl
  refine ⟨fun id' => by rw [hduplicates, mem_duplicatesOf], dangling_iff h, ?_⟩
  have hnone : report.danglingReferences = [] ↔ ∀ id', Names s id' → id' ∈ entityIds s := by
    constructor
    · intro hnil id' hnames
      by_contra hunknown
      rcases (dangling_iff h id').mpr ⟨hnames, hunknown⟩ with ⟨d, hd, -⟩
      rw [hnil] at hd
      cases hd
    · intro hall
      refine List.eq_nil_iff_forall_not_mem.mpr fun d hd => ?_
      have hdangling := (dangling_iff h d.referencedInstanceId).mp ⟨d, hd, rfl⟩
      exact hdangling.2 (hall _ hdangling.1)
  rw [SnapshotReferenceReport.hasIssues, Bool.or_eq_false_iff, Bool.not_eq_false',
    Bool.not_eq_false', List.isEmpty_iff, List.isEmpty_iff, hnone, hduplicates,
    duplicatesOf_eq_nil]

/-- A snapshot with two cards of one id, whose history says that a card was drawn that
    is not there any more. -/
def drawnCardGone : IdentifiedSnapshot where
  toCombatStateSnapshot := { smallSnapshot with
    player := { smallSnapshot.player with cardInstances := [strikeOnTop, strikeOnTop] }
    combatHistory := ⟨[⟨.str (.text "CardDrawnEntry"), 1, .str (.text "Player"), Dict.empty,
      .obj [Api.member "Card" (.obj [Api.member "CardInstanceId" (.str (.text "card-000009"))])],
      .str (.text "player-000001")⟩], []⟩ }
  defined := by decide +kernel
  actors := by decide +kernel
  direct := by decide +kernel

theorem report_exact_drawn :
    1 < (entityIds drawnCardGone).count (.text "card-000001") ∧
      Names drawnCardGone (.text "card-000009") ∧
      PyStr.text "card-000009" ∉ entityIds drawnCardGone := by
  have hreport : validateSnapshotReferences drawnCardGone = .ok ⟨[.text "card-000001"],
      [⟨.text "CombatHistory.Entries[0].Fields.Card.CardInstanceId", .text "card-000009",
        .str (.text "CardDrawnEntry"), .sourceLiveStateInconsistency⟩]⟩ := by
    decide +kernel
  rcases report_exact hreport with ⟨hduplicates, hdangling, -⟩
  exact ⟨(hduplicates _).mp List.mem_cons_self, (hdangling _).mp ⟨_, List.mem_cons_self, rfl⟩⟩

/-- A snapshot may be restored exactly where the emulator calls it complete, it was
    taken at a decision of the player, no two entities share an id and all that is
    named is there; and where it may not, some reason is given. -/
theorem restoreInputEligibility_iff {verdict : Bool × List String}
    (h : restoreInputEligibility s = .ok verdict) :
    (verdict.1 = true ↔ s.metadata.completeness = .complete ∧
      s.metadata.captureBoundary = .normalPlayerDecision ∧
      (entityIds s).Nodup ∧ ∀ id', Names s id' → id' ∈ entityIds s) ∧
    (verdict.1 = true ↔ verdict.2 = []) := by
  rcases (Except.bind_eq_ok _ _ _).mp h with ⟨report, hreport, hpure⟩
  cases hpure
  have hissues := (report_exact hreport).2.2
  rw [SnapshotReferenceReport.hasIssues, Bool.or_eq_false_iff, Bool.not_eq_false',
    Bool.not_eq_false'] at hissues
  refine ⟨?_, List.isEmpty_iff⟩
  rw [← hissues, List.isEmpty_iff]
  simp only [List.append_eq_nil_iff, ite_eq_left_iff, captureBoundaryIsRestoreEligible,
    decide_eq_true_eq, List.cons_ne_nil, imp_false, not_not, and_assoc]

/-- The ids of a snapshot with a card and an enemy. -/
def smallIdentified : IdentifiedSnapshot where
  toCombatStateSnapshot := smallSnapshot
  defined := by decide +kernel
  actors := by decide +kernel
  direct := by decide +kernel

/-- A snapshot with a history can be restored, and not once the card it names is gone. -/
theorem restoreInputEligibility_iff_small :
    (smallIdentified.metadata.completeness = .complete ∧
      smallIdentified.metadata.captureBoundary = .normalPlayerDecision ∧
      (entityIds smallIdentified).Nodup ∧
      ∀ id', Names smallIdentified id' → id' ∈ entityIds smallIdentified) ∧
    ¬ (drawnCardGone.metadata.completeness = .complete ∧
      drawnCardGone.metadata.captureBoundary = .normalPlayerDecision ∧
      (entityIds drawnCardGone).Nodup ∧
      ∀ id', Names drawnCardGone id' → id' ∈ entityIds drawnCardGone) := by
  have heligible : restoreInputEligibility smallIdentified = .ok (true, []) := by decide +kernel
  have hrefused : restoreInputEligibility drawnCardGone = .ok (false,
      ["duplicate_instance_ids=['card-000001']",
        "dangling_references=1 (see validate_snapshot_references for detail)"]) := by
    decide +kernel
  exact ⟨(restoreInputEligibility_iff heligible).1.mp rfl,
    fun hall => Bool.false_ne_true ((restoreInputEligibility_iff hrefused).1.mpr hall)⟩

end Verdict

/-!
### A hypothesis in a snapshot

Putting a hypothesis into a snapshot changes no id and no reference.
-/

section Derived

variable {rng : SerializableRngSnapshot} {orderedDrawPile : List CardInstanceSnapshot}

/-- What is placed under an id has the id of a card of the order. -/
theorem instanceId_of_placed {key : PyStr} {placed : CardInstanceSnapshot}
    (h : (placedById orderedDrawPile).get? key = some placed) :
    ∃ card ∈ orderedDrawPile, key = Api.pyStr card.instanceId ∧
      placed.instanceId = card.instanceId := by
  rcases Dict.mem_of_get?_setAll _ key placed Dict.empty h with hmem | hempty
  · rcases List.mem_map.mp hmem with ⟨entry, hentry, heq⟩
    cases heq
    exact ⟨entry.1, List.fst_mem_of_mem_zipIdx hentry, rfl, rfl⟩
  · cases hempty

/-- A hypothesis gives no card another id. -/
theorem definedInstanceIds_substituted {s : CombatStateSnapshot}
    (hids : ∀ card ∈ s.player.cardInstances, ∃ t, card.instanceId = .str t)
    (hordered : ∀ card ∈ orderedDrawPile, card ∈ s.player.cardInstances) :
    definedInstanceIds (substituted s rng orderedDrawPile) = definedInstanceIds s := by
  have hcards : (substituted s rng orderedDrawPile).player.cardInstances.map (·.instanceId) =
      s.player.cardInstances.map (·.instanceId) := by
    change (s.player.cardInstances.map _).map _ = _
    rw [List.map_map]
    refine List.map_congr_left fun card hcard => ?_
    rw [Function.comp_apply]
    cases hplaced : (placedById orderedDrawPile).get? (Api.pyStr card.instanceId) with
    | none => rfl
    | some placed =>
        rcases instanceId_of_placed hplaced with ⟨source, hsource, hkey, hid⟩
        rcases hids card hcard with ⟨t, ht⟩
        rcases hids source (hordered source hsource) with ⟨t', ht'⟩
        rw [ht, ht'] at hkey
        change t = t' at hkey
        rw [Option.getD_some, hid, ht, ht', hkey]
  unfold definedInstanceIds
  dsimp only
  rw [hcards]
  rfl

/-- A snapshot that a hypothesis is put into has its ids as the root has them. -/
def IdentifiedSnapshot.withHypothesis (s : IdentifiedSnapshot) (rng : SerializableRngSnapshot)
    (hids : ∀ card ∈ s.player.cardInstances, ∃ t, card.instanceId = .str t)
    (hordered : ∀ card ∈ orderedDrawPile, card ∈ s.player.cardInstances) :
    IdentifiedSnapshot where
  toCombatStateSnapshot := substituted s.toCombatStateSnapshot rng orderedDrawPile
  defined := by
    rw [definedInstanceIds_substituted hids hordered]
    exact s.defined
  actors := s.actors
  direct := s.direct

theorem validate_withHypothesis {s : IdentifiedSnapshot} (rng : SerializableRngSnapshot)
    (hids : ∀ card ∈ s.player.cardInstances, ∃ t, card.instanceId = .str t)
    (hordered : ∀ card ∈ orderedDrawPile, card ∈ s.player.cardInstances) :
    validateSnapshotReferences (s.withHypothesis rng hids hordered) =
      validateSnapshotReferences s := by
  have hknown : collectKnownInstanceIds (s.withHypothesis rng hids hordered) =
      collectKnownInstanceIds s := by
    unfold collectKnownInstanceIds IdentifiedSnapshot.withHypothesis
    rw [definedInstanceIds_substituted hids hordered]
  unfold validateSnapshotReferences
  rw [hknown]
  rfl

/-- A snapshot that a hypothesis is put into may be restored exactly where its root
    may, with the same report and for the same reasons. -/
theorem derived_eligibility {s : IdentifiedSnapshot} {derived : CombatStateSnapshot}
    (hplain : Plain s.toCombatStateSnapshot)
    (hids : ∀ card ∈ s.player.cardInstances, ∃ t, card.instanceId = .str t)
    (hordered : ∀ card ∈ orderedDrawPile, card ∈ s.player.cardInstances)
    (hderived : deriveSubstitutedSnapshot s.toCombatStateSnapshot rng orderedDrawPile =
      .ok derived) :
    ∃ d : IdentifiedSnapshot, d.toCombatStateSnapshot = derived ∧
      validateSnapshotReferences d = validateSnapshotReferences s ∧
      restoreInputEligibility d = restoreInputEligibility s := by
  rw [deriveSubstitutedSnapshot_eq hplain.known hplain.free] at hderived
  split at hderived
  · cases hderived
    have hreport := validate_withHypothesis rng hids hordered
    refine ⟨s.withHypothesis rng hids hordered, rfl, hreport, ?_⟩
    unfold restoreInputEligibility
    rw [hreport]
    rfl
  · cases hderived

theorem derived_eligibility_small :
    ∃ d : IdentifiedSnapshot,
      d.toCombatStateSnapshot = substituted smallSnapshot ⟨5, 6, 7, 8, 9⟩ [strikeOnTop] ∧
      validateSnapshotReferences d = validateSnapshotReferences smallIdentified ∧
      restoreInputEligibility d = restoreInputEligibility smallIdentified := by
  have hplain : Plain smallSnapshot := ⟨rfl, rfl, by decide +kernel⟩
  refine derived_eligibility (s := smallIdentified) hplain ?_ ?_
    ((deriveSubstitutedSnapshot_eq hplain.known hplain.free
      ⟨5, 6, 7, 8, 9⟩ [strikeOnTop]).trans (if_pos (by decide +kernel)))
  · intro card hcard
    rw [List.mem_singleton.mp hcard]
    exact ⟨_, rfl⟩
  · exact fun card hcard => hcard

end Derived

end Wire

end Combat

end STS2RL
