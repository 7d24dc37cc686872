import STS2RL.Api.Validation
import STS2RL.Core.Except
import Mathlib.Data.List.Forall2
import Mathlib.Data.List.Nodup

/-!
# Slot Names of Enemies

Some monsters open by the name of their slot, which a run history does not record. Where
an encounter has a fixed layout, the names are filled in from the order of the enemies,
and a manifest says of every enemy where its name comes from.

A name that is given is left alone, and no name is filled in that somebody else has. The
names are filled in again when a scenario is built. The second pass finds every name of
the first already given, so it changes none, but its manifest says of all of them that the
history gave them. An encounter with more exoskeletons than its layout has slots passes
once and is refused the second time: the surplus is counted from the first slot again.

## Main definitions

* `ensureInferredSlotNames`: The names filled in, and the manifest.
* `Outcome`: What becomes of one enemy.
* `Surplus`: An enemy that a layout counts but has no slot for.

## Theorems

* `inferSlots_fits`: What the loop does to each enemy.
* `mergeSort_eq_rowsOf`: The manifest has one row for each enemy, in order.
* `slot_names_inferred`: What a pass leaves.
* `slot_names_again`: What a second pass does.
-/

namespace STS2RL

namespace Combat

/-!
### The pass over the enemies

The layouts of two encounters, the rows of the manifest, and the pass that gives each
enemy its slot.
-/

namespace SlotNames

open Api (PyError)

variable {α : Type}

/-- An enemy of a scenario. The rest of it is not touched. -/
structure EnemySpec (α : Type) where
  monsterId : Option String
  slotName : Option String
  rest : α
  deriving DecidableEq, Repr

/-- Where a name is from. -/
inductive SlotSource where
  | sourceHistory
  | encounterDefinition
  | inferredFromOrder
  | unavailable
  deriving DecidableEq, Repr

/-- How far a name can be trusted. -/
inductive SlotConfidence where
  | exact
  | exactForRecordedOrder
  | none
  deriving DecidableEq, Repr

/-- `_manifest_row`. -/
structure ManifestRow where
  enemyIndex : Nat
  monsterId : Option String
  slotName : Option String
  source : SlotSource
  confidence : SlotConfidence
  deriving DecidableEq, Repr

/-- What a scenario says of its enemies. -/
structure ScenarioSpec (α : Type) where
  sourceEncounter : Option String
  encounterId : Option String
  enemies : List (EnemySpec α)
  slotNameManifest : Option (List ManifestRow) := none
  deriving DecidableEq, Repr

/-- `if enemy.get("slot_name")`. -/
def EnemySpec.named (enemy : EnemySpec α) : Bool :=
  match enemy.slotName with
  | some slotName => slotName ≠ ""
  | none => false

/-- The lower case of a character, where it is ASCII. Beyond ASCII this is so of the Kelvin
    sign only, and the ids that are compared with are ASCII. -/
def lowerChar (c : Char) : Char := if c.toNat = 0x212A then 'k' else c.toLower

/-- `_normalize_id`. -/
def normalizeId (value : Option String) : String :=
  String.ofList (((value.getD "").toList.filter fun c => c ≠ '_' && c ≠ '.').map lowerChar)

/-- `_encounter_name`: what comes after the last dot. -/
def encounterName (spec : ScenarioSpec α) : String :=
  let given := match spec.sourceEncounter with
    | some encounter => if encounter = "" then spec.encounterId.getD "" else encounter
    | none => spec.encounterId.getD ""
  String.ofList (given.toList.reverse.takeWhile (· ≠ '.')).reverse

/-- A name that is filled in, with where it comes from. -/
structure InferredSlot where
  slotName : String
  source : SlotSource
  confidence : SlotConfidence

/-- The slot for a monster without a name, from how many the layout has counted, and how
    many it has counted then. -/
abbrev Layout := Nat → Option String → Option InferredSlot × Nat

/-- The layout of `PHROG_PARASITE_ELITE`. -/
def phrogLayout : Layout := fun count monsterId =>
  if normalizeId monsterId = normalizeId (some "PHROG_PARASITE") then
    (some ⟨"phrog", .encounterDefinition, .exact⟩, count)
  else if normalizeId monsterId = normalizeId (some "WRIGGLER") then
    (some ⟨"wriggler" ++ toString (count + 1), .inferredFromOrder, .exactForRecordedOrder⟩,
      count + 1)
  else (none, count)

/-- The layout of exoskeletons. One without a slot is counted all the same. -/
def exoskeletonLayout (slots : List String) : Layout := fun count monsterId =>
  if normalizeId monsterId ≠ normalizeId (some "EXOSKELETON") then (none, count)
  else (slots[count]?.map fun slot => ⟨slot, .inferredFromOrder, .exactForRecordedOrder⟩, count + 1)

/-- `EXOSKELETON_WEAK_SLOTS`. -/
def exoskeletonWeakSlots : List String := ["first", "second", "third"]

/-- `EXOSKELETON_NORMAL_SLOTS`. -/
def exoskeletonNormalSlots : List String := ["first", "second", "third", "fourth"]

/-- The layout of an encounter. Most have none. -/
def layoutOf (encounter : String) : Layout :=
  if encounter = "PHROG_PARASITE_ELITE" then phrogLayout
  else if encounter = "EXOSKELETONS_WEAK" then exoskeletonLayout exoskeletonWeakSlots
  else if encounter = "EXOSKELETONS_NORMAL" then exoskeletonLayout exoskeletonNormalSlots
  else fun count _ => (none, count)

/-- The row of an enemy that had a name. -/
def givenRow (index : Nat) (enemy : EnemySpec α) : ManifestRow :=
  ⟨index, enemy.monsterId, enemy.slotName, .sourceHistory, .exact⟩

/-- The row of an enemy whose name was inferred. -/
def inferredRow (index : Nat) (enemy : EnemySpec α) (slot : InferredSlot) : ManifestRow :=
  ⟨index, enemy.monsterId, some slot.slotName, slot.source, slot.confidence⟩

/-- The row of an enemy without a name. -/
def missingRow (index : Nat) (enemy : EnemySpec α) : ManifestRow :=
  ⟨index, enemy.monsterId, enemy.slotName, .unavailable, .none⟩

/-- The rows of the names that are given. -/
def givenRows : Nat → List (EnemySpec α) → List ManifestRow
  | _, [] => []
  | index, enemy :: rest =>
      if enemy.named then givenRow index enemy :: givenRows (index + 1) rest
      else givenRows (index + 1) rest

/-- The error of a name that is taken. -/
def duplicateSlot (slotName : String) : PyError :=
  .raised "ValueError" ("duplicate inferred SlotName '" ++ slotName ++ "' in one scenario")

/-- The loop over the enemies, with `_set_slot`: each enemy with its name, and the row of a
    name that was filled in. -/
def inferSlots (layout : Layout) : Nat → Nat → List String → List (EnemySpec α) →
    Except PyError (List (EnemySpec α × Option ManifestRow))
  | _, _, _, [] => .ok []
  | index, count, used, enemy :: rest =>
      if enemy.named then
        (inferSlots layout (index + 1) count used rest).map ((enemy, none) :: ·)
      else
        match layout count enemy.monsterId with
        | (none, count) => (inferSlots layout (index + 1) count used rest).map ((enemy, none) :: ·)
        | (some slot, count) =>
            if slot.slotName ∈ used then .error (duplicateSlot slot.slotName)
            else
              (inferSlots layout (index + 1) count (slot.slotName :: used) rest).map
                (({ enemy with slotName := some slot.slotName },
                  some (inferredRow index enemy slot)) :: ·)

/-- The rows of the enemies that have none yet. -/
def missingRows (manifested : List Nat) : Nat → List (EnemySpec α) → List ManifestRow
  | _, [] => []
  | index, enemy :: rest =>
      if index ∈ manifested then missingRows manifested (index + 1) rest
      else missingRow index enemy :: missingRows manifested (index + 1) rest

/-- `ensure_inferred_slot_names`. -/
def ensureInferredSlotNames (spec : ScenarioSpec α) : Except PyError (ScenarioSpec α) := do
  let given := givenRows 0 spec.enemies
  let inferred ← inferSlots (layoutOf (encounterName spec)) 0 0 (given.filterMap (·.slotName))
    spec.enemies
  let enemies := inferred.map (·.1)
  let manifest := given ++ inferred.filterMap (·.2)
  let manifest := manifest ++ missingRows (manifest.map (·.enemyIndex)) 0 enemies
  pure { spec with
    enemies
    slotNameManifest := some (manifest.mergeSort fun a b => a.enemyIndex ≤ b.enemyIndex) }

/-!
### The loop

Each enemy has the outcome its name and its monster call for, and a layout is regular: it
starts at its first slot and never gives one twice.
-/

section Loop

/-- What becomes of one enemy. -/
inductive Outcome (index : Nat) (enemy : EnemySpec α) :
    EnemySpec α × Option ManifestRow → Prop where
  | given (h : enemy.named = true) : Outcome index enemy (enemy, none)
  | inferred (h : enemy.named = false) (slot : InferredSlot) (hslot : slot.slotName ≠ "")
      (hsource : slot.source = .encounterDefinition ∨ slot.source = .inferredFromOrder) :
      Outcome index enemy ({ enemy with slotName := some slot.slotName },
        some (inferredRow index enemy slot))
  | left (h : enemy.named = false) : Outcome index enemy (enemy, none)

/-- What becomes of the enemies from an index on. -/
def Fits : Nat → List (EnemySpec α) → List (EnemySpec α × Option ManifestRow) → Prop
  | _, [], [] => True
  | index, enemy :: rest, result :: results => Outcome index enemy result ∧
      Fits (index + 1) rest results
  | _, _, _ => False

/-- What the layouts have in common. A monster that gets no slot as the first one is never
    counted. One that gets a slot as the first and not later comes after others, the first
    of which got that slot. -/
structure Layout.Regular (layout : Layout) (first : String) : Prop where
  names : ∀ count monsterId slot, (layout count monsterId).1 = some slot → slot.slotName ≠ "" ∧
    (slot.source = .encounterDefinition ∨ slot.source = .inferredFromOrder)
  idle : ∀ monsterId, (layout 0 monsterId).1 = none → ∀ count, layout count monsterId =
    (none, count)
  surplus : ∀ count monsterId slot, (layout 0 monsterId).1 = some slot →
    (layout count monsterId).1 = none → 0 < count ∧ slot.slotName = first
  counted : ∀ monsterId, 0 < (layout 0 monsterId).2 →
    ∃ slot, (layout 0 monsterId).1 = some slot ∧ slot.slotName = first

/-- The wrigglers are numbered one after the other. -/
theorem phrogLayout_regular : phrogLayout.Regular "wriggler1" where
  names count monsterId slot h := by
    unfold phrogLayout at h
    split at h
    · cases h
      exact ⟨by decide, .inl rfl⟩
    · split at h
      · cases h
        refine ⟨fun hempty => ?_, .inr rfl⟩
        have hlength := congrArg String.length hempty
        simp at hlength
      · cases h
  idle monsterId h count := by
    unfold phrogLayout at h ⊢
    split at h
    · cases h
    · rename_i hparasite
      rw [if_neg hparasite]
      split at h
      · cases h
      · rename_i hwriggler
        rw [if_neg hwriggler]
  surplus count monsterId slot h hnone := by
    unfold phrogLayout at h hnone
    split at h
    · rename_i hparasite
      rw [if_pos hparasite] at hnone
      cases hnone
    · rename_i hparasite
      rw [if_neg hparasite] at hnone
      split at h
      · rename_i hwriggler
        rw [if_pos hwriggler] at hnone
        cases hnone
      · cases h
  counted monsterId h := by
    unfold phrogLayout at h ⊢
    split at h
    · cases h
    · rename_i hparasite
      rw [if_neg hparasite]
      split at h
      · rename_i hwriggler
        rw [if_pos hwriggler]
        exact ⟨_, rfl, rfl⟩
      · cases h

/-- The exoskeletons take the slots of their list in order. -/
theorem exoskeletonLayout_regular {first : String} {rest : List String} (h : "" ∉ first :: rest) :
    (exoskeletonLayout (first :: rest)).Regular first where
  names count monsterId slot hslot := by
    unfold exoskeletonLayout at hslot
    split at hslot
    · cases hslot
    · rcases Option.map_eq_some_iff.mp hslot with ⟨name, hname, rfl⟩
      refine ⟨fun hempty => h ?_, .inr rfl⟩
      rw [← hempty]
      exact List.mem_of_getElem? hname
  idle monsterId hnone count := by
    unfold exoskeletonLayout at hnone ⊢
    split at hnone
    · rename_i hother
      rw [if_pos hother]
    · cases hnone
  surplus count monsterId slot hslot hnone := by
    unfold exoskeletonLayout at hslot hnone
    split at hslot
    · cases hslot
    · rename_i hexoskeleton
      rw [if_neg hexoskeleton] at hnone
      cases hslot
      refine ⟨Nat.pos_of_ne_zero fun hzero => ?_, rfl⟩
      rw [hzero] at hnone
      cases hnone
  counted monsterId hcount := by
    unfold exoskeletonLayout at hcount ⊢
    split at hcount
    · cases hcount
    · rename_i hexoskeleton
      rw [if_neg hexoskeleton]
      exact ⟨_, rfl, rfl⟩

theorem layoutOf_regular (encounter : String) : ∃ first, (layoutOf encounter).Regular first := by
  unfold layoutOf
  split
  · exact ⟨_, phrogLayout_regular⟩
  · split
    · exact ⟨"first", exoskeletonLayout_regular (by decide)⟩
    · split
      · exact ⟨"first", exoskeletonLayout_regular (by decide)⟩
      · exact ⟨"", fun _ _ _ h => (by cases h), fun _ _ _ => rfl, fun _ _ _ h => (by cases h),
          fun _ h => by cases h⟩

-- Induction on the enemies, as the loop goes through them.
/-- The pass gives every enemy an outcome that fits it. -/
theorem inferSlots_fits {layout : Layout} {first : String} (hlayout : layout.Regular first)
    {index count : Nat}
    {used : List String} {enemies : List (EnemySpec α)}
    {results : List (EnemySpec α × Option ManifestRow)}
    (h : inferSlots layout index count used enemies = .ok results) :
    Fits index enemies results := by
  induction enemies generalizing index count used results with
  | nil =>
      cases h
      trivial
  | cons enemy rest ih =>
      unfold inferSlots at h
      by_cases hnamed : enemy.named = true
      · rw [if_pos hnamed] at h
        rcases (Except.map_eq_ok _ _ _).mp h with ⟨results, hrest, rfl⟩
        exact ⟨.given hnamed, ih hrest⟩
      · rw [if_neg hnamed] at h
        have hunnamed := Bool.eq_false_iff.mpr hnamed
        rcases hverdict : layout count enemy.monsterId with ⟨_ | slot, count'⟩
        · rw [hverdict] at h
          rcases (Except.map_eq_ok _ _ _).mp h with ⟨results, hrest, rfl⟩
          exact ⟨.left hunnamed, ih hrest⟩
        · rw [hverdict] at h
          dsimp only at h
          split at h
          · cases h
          · rcases (Except.map_eq_ok _ _ _).mp h with ⟨results, hrest, rfl⟩
            rcases hlayout.names count enemy.monsterId slot (by rw [hverdict]) with ⟨hslot, hsource⟩
            exact ⟨.inferred hunnamed slot hslot hsource, ih hrest⟩

end Loop

/-!
### The manifest

The rows of the source come in three lists that are sorted by the index of the enemy;
sorted they are one row for each enemy, in order.
-/

section Manifest

/-- The row of one enemy. -/
def rowOf (index : Nat) (enemy : EnemySpec α) (result : EnemySpec α × Option ManifestRow) :
    ManifestRow :=
  if enemy.named then givenRow index enemy else result.2.getD (missingRow index result.1)

/-- The rows of the enemies from an index on. -/
def rowsOf : Nat → List (EnemySpec α) → List (EnemySpec α × Option ManifestRow) →
    List ManifestRow
  | index, enemy :: rest, result :: results =>
      rowOf index enemy result :: rowsOf (index + 1) rest results
  | _, _, _ => []

theorem Outcome.enemyIndex_rowOf {index : Nat} {enemy : EnemySpec α}
    {result : EnemySpec α × Option ManifestRow} (h : Outcome index enemy result) :
    (rowOf index enemy result).enemyIndex = index := by
  unfold rowOf
  cases h with
  | given h => rw [if_pos h]; rfl
  | inferred h slot _ _ => rw [if_neg (by rw [h]; exact Bool.false_ne_true)]; rfl
  | left h => rw [if_neg (by rw [h]; exact Bool.false_ne_true)]; rfl

theorem le_enemyIndex_givenRows {index : Nat} {enemies : List (EnemySpec α)} {row : ManifestRow}
    (h : row ∈ givenRows index enemies) : index ≤ row.enemyIndex := by
  induction enemies generalizing index with
  | nil => cases h
  | cons enemy rest ih =>
      unfold givenRows at h
      split at h
      · rcases List.mem_cons.mp h with rfl | h
        · exact Nat.le_refl _
        · exact Nat.le_of_succ_le (ih h)
      · exact Nat.le_of_succ_le (ih h)

/-- A row that was inferred has the index of an enemy that is still to come. -/
theorem le_enemyIndex_of_fits {index : Nat} {enemies : List (EnemySpec α)}
    {results : List (EnemySpec α × Option ManifestRow)} (hfits : Fits index enemies results)
    {row : ManifestRow} (h : row ∈ results.filterMap (·.2)) : index ≤ row.enemyIndex := by
  induction enemies generalizing index results with
  | nil =>
      cases results with
      | nil => cases h
      | cons result results => exact hfits.elim
  | cons enemy rest ih =>
      cases results with
      | nil => exact hfits.elim
      | cons result results =>
          rcases hfits with ⟨houtcome, hrest⟩
          cases houtcome with
          | given _ => exact Nat.le_of_succ_le (ih hrest h)
          | inferred _ slot _ _ =>
              rcases List.mem_cons.mp h with rfl | h
              · exact Nat.le_refl _
              · exact Nat.le_of_succ_le (ih hrest h)
          | left _ => exact Nat.le_of_succ_le (ih hrest h)

/-- Only the indices that are gone through matter. -/
theorem missingRows_congr {manifested manifested' : List Nat} {index : Nat}
    (enemies : List (EnemySpec α))
    (h : ∀ i, index ≤ i → (i ∈ manifested ↔ i ∈ manifested')) :
    missingRows manifested index enemies = missingRows manifested' index enemies := by
  induction enemies generalizing index with
  | nil => rfl
  | cons enemy rest ih =>
      unfold missingRows
      have hrest := ih fun i hi => h i (Nat.le_of_succ_le hi)
      by_cases hmem : index ∈ manifested
      · rw [if_pos hmem, if_pos ((h index (Nat.le_refl _)).mp hmem), hrest]
      · rw [if_neg hmem, if_neg fun hmem' => hmem ((h index (Nat.le_refl _)).mpr hmem'), hrest]

/-- Each enemy has its row among the given, the inferred and the missing ones. -/
theorem perm_rowsOf {index : Nat} {enemies : List (EnemySpec α)}
    {results : List (EnemySpec α × Option ManifestRow)} (hfits : Fits index enemies results) :
    (givenRows index enemies ++ results.filterMap (·.2) ++
      missingRows ((givenRows index enemies ++ results.filterMap (·.2)).map (·.enemyIndex)) index
        (results.map (·.1))).Perm (rowsOf index enemies results) := by
  -- The induction is on the enemies. The manifest of the rest has later indices only, so that
  -- the row of this enemy is found, or found missing, by its index alone.
  induction enemies generalizing index results with
  | nil =>
      cases results with
      | nil => exact .nil
      | cons result results => exact hfits.elim
  | cons enemy rest ih =>
      cases results with
      | nil => exact hfits.elim
      | cons result results =>
          rcases hfits with ⟨houtcome, hrest⟩
          have hsorted := ih hrest
          generalize hmanifest : (givenRows (index + 1) rest ++ results.filterMap (·.2)).map
            (·.enemyIndex) = manifested at hsorted
          -- Every row of the rest is of a later enemy.
          have hlater : ∀ i ∈ manifested, index + 1 ≤ i := by
            intro i hi
            rw [← hmanifest] at hi
            rcases List.mem_map.mp hi with ⟨row, hrow, rfl⟩
            rcases List.mem_append.mp hrow with hgiven | hinferred
            · exact le_enemyIndex_givenRows hgiven
            · exact le_enemyIndex_of_fits hrest hinferred
          -- Whether the row of this enemy is there makes no difference to the missing rows of
          -- the rest.
          have hcongr : ∀ manifested', (∀ i, i ∈ manifested' ↔ i = index ∨ i ∈ manifested) →
              missingRows manifested' (index + 1) (results.map (·.1)) =
                missingRows manifested (index + 1) (results.map (·.1)) := by
            intro manifested' hmem
            refine missingRows_congr _ fun i hi => (hmem i).trans ⟨fun h => ?_, .inr⟩
            exact h.resolve_left (by omega)
          -- The row of this enemy is given, was inferred, or is missing, and stands in front in
          -- each case.
          cases houtcome with
          | given h =>
              have hhere : missingRows (index :: manifested) index (enemy :: results.map (·.1)) =
                  missingRows manifested (index + 1) (results.map (·.1)) := by
                rw [missingRows, if_pos List.mem_cons_self]
                exact hcongr _ fun i => List.mem_cons
              refine show (givenRows index (enemy :: rest) ++ results.filterMap (·.2) ++
                missingRows ((givenRows index (enemy :: rest) ++ results.filterMap (·.2)).map
                  (·.enemyIndex)) index (enemy :: results.map (·.1))).Perm
                (rowOf index enemy (enemy, none) :: rowsOf (index + 1) rest results) from ?_
              unfold givenRows rowOf
              rw [if_pos h, if_pos h]
              refine .cons _ ?_
              rw [List.cons_append, List.map_cons, hmanifest,
                show (givenRow index enemy).enemyIndex = index from rfl, hhere]
              exact hsorted
          | inferred h slot _ _ =>
              have hmem : ∀ i, i ∈ (givenRows (index + 1) rest ++
                  inferredRow index enemy slot :: results.filterMap (·.2)).map (·.enemyIndex) ↔
                    i = index ∨ i ∈ manifested := by
                intro i
                rw [← hmanifest, List.map_append, List.map_append, List.map_cons, List.mem_append,
                  List.mem_append, List.mem_cons]
                exact or_left_comm
              have hhere : missingRows ((givenRows (index + 1) rest ++
                  inferredRow index enemy slot :: results.filterMap (·.2)).map (·.enemyIndex))
                    index ({ enemy with slotName := some slot.slotName } :: results.map (·.1)) =
                  missingRows manifested (index + 1) (results.map (·.1)) := by
                rw [missingRows, if_pos ((hmem index).mpr (.inl rfl))]
                exact hcongr _ hmem
              refine show (givenRows index (enemy :: rest) ++
                inferredRow index enemy slot :: results.filterMap (·.2) ++
                missingRows ((givenRows index (enemy :: rest) ++
                  inferredRow index enemy slot :: results.filterMap (·.2)).map (·.enemyIndex)) index
                    ({ enemy with slotName := some slot.slotName } :: results.map (·.1))).Perm
                (rowOf index enemy ({ enemy with slotName := some slot.slotName },
                  some (inferredRow index enemy slot)) :: rowsOf (index + 1) rest results) from ?_
              have hunnamed : ¬ enemy.named = true := by
                rw [h]
                exact Bool.false_ne_true
              unfold givenRows rowOf
              rw [if_neg hunnamed, if_neg hunnamed, hhere, List.append_assoc, List.cons_append]
              refine List.perm_middle.trans (.cons _ ?_)
              rw [← List.append_assoc]
              exact hsorted
          | left h =>
              have hhere : missingRows manifested index (enemy :: results.map (·.1)) =
                  missingRow index enemy ::
                    missingRows manifested (index + 1) (results.map (·.1)) := by
                rw [missingRows, if_neg fun hmem => Nat.not_succ_le_self _ (hlater index hmem)]
              refine show (givenRows index (enemy :: rest) ++ results.filterMap (·.2) ++
                missingRows ((givenRows index (enemy :: rest) ++ results.filterMap (·.2)).map
                  (·.enemyIndex)) index (enemy :: results.map (·.1))).Perm
                (rowOf index enemy (enemy, none) :: rowsOf (index + 1) rest results) from ?_
              have hunnamed : ¬ enemy.named = true := by
                rw [h]
                exact Bool.false_ne_true
              unfold givenRows rowOf
              rw [if_neg hunnamed, if_neg hunnamed, hmanifest, hhere]
              exact List.perm_middle.trans (.cons _ hsorted)

/-- The rows come in the order of the enemies. -/
theorem lt_enemyIndex_rowsOf {index : Nat} {enemies : List (EnemySpec α)}
    {results : List (EnemySpec α × Option ManifestRow)} (hfits : Fits index enemies results) :
    (rowsOf index enemies results).Pairwise (fun a b => a.enemyIndex < b.enemyIndex) ∧
      ∀ row ∈ rowsOf index enemies results, index ≤ row.enemyIndex := by
  induction enemies generalizing index results with
  | nil => exact ⟨.nil, fun _ h => nomatch h⟩
  | cons enemy rest ih =>
      cases results with
      | nil => exact hfits.elim
      | cons result results =>
          have hrest := ih hfits.2
          have hindex := hfits.1.enemyIndex_rowOf
          refine ⟨.cons (fun row hrow => ?_) hrest.1, fun row hrow => ?_⟩
          · rw [hindex]
            exact hrest.2 row hrow
          · rcases List.mem_cons.mp hrow with rfl | hrow
            · exact Nat.le_of_eq hindex.symm
            · exact Nat.le_of_succ_le (hrest.2 row hrow)

/-- Rows that are put in the order of their indices are in the order of the enemies. -/
theorem mergeSort_eq_rowsOf {index : Nat} {enemies : List (EnemySpec α)}
    {results : List (EnemySpec α × Option ManifestRow)} (hfits : Fits index enemies results)
    {rows : List ManifestRow} (hperm : rows.Perm (rowsOf index enemies results)) :
    rows.mergeSort (fun a b => a.enemyIndex ≤ b.enemyIndex) = rowsOf index enemies results := by
  have hsorted := (lt_enemyIndex_rowsOf hfits).1
  have horder : (rows.mergeSort fun a b => a.enemyIndex ≤ b.enemyIndex).Pairwise
      fun a b => a.enemyIndex ≤ b.enemyIndex := by
    refine (List.pairwise_mergeSort (fun a b c hab hbc => ?_) (fun a b => ?_) rows).imp
      of_decide_eq_true
    · exact decide_eq_true (Nat.le_trans (of_decide_eq_true hab) (of_decide_eq_true hbc))
    · simpa using Nat.le_total a.enemyIndex b.enemyIndex
  refine List.Perm.eq_of_pairwise (fun a b ha hb hab hba => ?_) horder
    (hsorted.imp Nat.le_of_lt) ((List.mergeSort_perm _ _).trans hperm)
  -- Two rows with one index are one row.
  have hnodup : ((rowsOf index enemies results).map (·.enemyIndex)).Nodup :=
    List.pairwise_map.mpr (hsorted.imp Nat.ne_of_lt)
  exact List.inj_on_of_nodup_map hnodup
    (hperm.subset ((List.mergeSort_perm _ _).subset ha)) hb (Nat.le_antisymm hab hba)

/-- What a pass does: the loop, and a manifest with one row for each enemy, in order. -/
theorem ensureInferredSlotNames_eq {spec : ScenarioSpec α}
    {results : List (EnemySpec α × Option ManifestRow)}
    (h : inferSlots (layoutOf (encounterName spec)) 0 0
      ((givenRows 0 spec.enemies).filterMap (·.slotName)) spec.enemies = .ok results) :
    Fits 0 spec.enemies results ∧ ensureInferredSlotNames spec = .ok { spec with
      enemies := results.map (·.1)
      slotNameManifest := some (rowsOf 0 spec.enemies results) } := by
  rcases layoutOf_regular (encounterName spec) with ⟨first, hregular⟩
  have hfits := inferSlots_fits hregular h
  refine ⟨hfits, ?_⟩
  unfold ensureInferredSlotNames
  dsimp only
  rw [h, ← mergeSort_eq_rowsOf hfits (perm_rowsOf hfits)]
  rfl

/-- A pass that is not refused went through all enemies. -/
theorem inferSlots_of_ensure {spec spec' : ScenarioSpec α}
    (h : ensureInferredSlotNames spec = .ok spec') :
    ∃ results, inferSlots (layoutOf (encounterName spec)) 0 0
        ((givenRows 0 spec.enemies).filterMap (·.slotName)) spec.enemies = .ok results ∧
      Fits 0 spec.enemies results ∧ spec' = { spec with
        enemies := results.map (·.1)
        slotNameManifest := some (rowsOf 0 spec.enemies results) } := by
  have hpass := h
  unfold ensureInferredSlotNames at h
  rcases (Except.bind_eq_ok _ _ _).mp h with ⟨results, hresults, _⟩
  rcases ensureInferredSlotNames_eq hresults with ⟨hfits, heq⟩
  rw [heq] at hpass
  cases hpass
  exact ⟨results, hresults, hfits, rfl⟩

theorem Fits.length_eq {index : Nat} {enemies : List (EnemySpec α)}
    {results : List (EnemySpec α × Option ManifestRow)} (h : Fits index enemies results) :
    results.length = enemies.length := by
  induction enemies generalizing index results with
  | nil =>
      cases results with
      | nil => rfl
      | cons result results => exact h.elim
  | cons enemy rest ih =>
      cases results with
      | nil => exact h.elim
      | cons result results => exact congrArg (· + 1) (ih h.2)

theorem length_rowsOf {index : Nat} {enemies : List (EnemySpec α)}
    {results : List (EnemySpec α × Option ManifestRow)} (h : Fits index enemies results) :
    (rowsOf index enemies results).length = enemies.length := by
  induction enemies generalizing index results with
  | nil => rfl
  | cons enemy rest ih =>
      cases results with
      | nil => exact h.elim
      | cons result results => exact congrArg (· + 1) (ih h.2)

/-- An enemy and its outcome stand at one index. -/
theorem Fits.at_index {index : Nat} {enemies : List (EnemySpec α)}
    {results : List (EnemySpec α × Option ManifestRow)} (h : Fits index enemies results) {i : Nat}
    {enemy : EnemySpec α} (hget : enemies[i]? = some enemy) :
    ∃ result, results[i]? = some result ∧ Outcome (index + i) enemy result ∧
      (rowsOf index enemies results)[i]? = some (rowOf (index + i) enemy result) := by
  induction enemies generalizing index results i with
  | nil => cases hget
  | cons head rest ih =>
      cases results with
      | nil => exact h.elim
      | cons result results =>
          cases i with
          | zero =>
              cases hget
              exact ⟨result, rfl, h.1, rfl⟩
          | succ i =>
              have hindex : index + (i + 1) = index + 1 + i := by omega
              rw [hindex]
              exact ih h.2 hget

end Manifest

/-- An exoskeleton more than the layout has slots for. -/
def exoskeletonSpec : ScenarioSpec Unit where
  sourceEncounter := some "ENCOUNTER.EXOSKELETONS_WEAK"
  encounterId := none
  enemies := List.replicate 4 ⟨some "EXOSKELETON", none, ()⟩

/-- What the loop makes of them. -/
def exoskeletonResults : List (EnemySpec Unit × Option ManifestRow) :=
  [(0, "first"), (1, "second"), (2, "third")].map (fun slot =>
      (⟨some "EXOSKELETON", some slot.2, ()⟩, some ⟨slot.1, some "EXOSKELETON", some slot.2,
        .inferredFromOrder, .exactForRecordedOrder⟩)) ++
    [(⟨some "EXOSKELETON", none, ()⟩, none)]

theorem ensureInferredSlotNames_exoskeletonSpec :
    ensureInferredSlotNames exoskeletonSpec = .ok { exoskeletonSpec with
      enemies := exoskeletonResults.map (·.1)
      slotNameManifest := some (rowsOf 0 exoskeletonSpec.enemies exoskeletonResults) } :=
  (ensureInferredSlotNames_eq (by decide)).2

/-!
### No slot twice

A slot that is given is neither one of the names in the specification nor one that was
given before.
-/

section Distinct

theorem EnemySpec.named_iff {enemy : EnemySpec α} :
    enemy.named = true ↔ ∃ slotName, enemy.slotName = some slotName ∧ slotName ≠ "" := by
  unfold EnemySpec.named
  rcases enemy.slotName with _ | slotName <;> simp

/-- The names that are given. -/
def names (enemies : List (EnemySpec α)) : List String :=
  (enemies.filter EnemySpec.named).filterMap (·.slotName)

theorem mem_names {enemies : List (EnemySpec α)} {slotName : String} :
    slotName ∈ names enemies ↔ ∃ enemy ∈ enemies, enemy.named = true ∧
      enemy.slotName = some slotName := by
  unfold names
  rw [List.mem_filterMap]
  constructor
  · rintro ⟨enemy, hmem, hname⟩
    rcases List.mem_filter.mp hmem with ⟨hmem, hnamed⟩
    exact ⟨enemy, hmem, hnamed, hname⟩
  · rintro ⟨enemy, hmem, hnamed, hname⟩
    exact ⟨enemy, List.mem_filter.mpr ⟨hmem, hnamed⟩, hname⟩

theorem filterMap_givenRows (index : Nat) (enemies : List (EnemySpec α)) :
    (givenRows index enemies).filterMap (·.slotName) = names enemies := by
  unfold names
  induction enemies generalizing index with
  | nil => rfl
  | cons enemy rest ih =>
      unfold givenRows
      by_cases hnamed : enemy.named = true
      · rcases EnemySpec.named_iff.mp hnamed with ⟨slotName, hname, _⟩
        have hrow : (givenRow index enemy).slotName = some slotName := hname
        rw [if_pos hnamed, List.filter_cons_of_pos hnamed, List.filterMap_cons_some hrow,
          List.filterMap_cons_some hname, ih]
      · rw [if_neg hnamed, List.filter_cons_of_neg hnamed, ih]

/-- What is known of the names when the loop is through. -/
structure Named (used given : List String) (results : List (EnemySpec α × Option ManifestRow)) :
    Prop where
  inferred : ∀ result ∈ results, result.2.isSome = true →
    ∃ slotName, result.1.slotName = some slotName ∧ slotName ∉ used
  given : ∀ result ∈ results, result.2.isSome = false → result.1.named = true →
    ∀ slotName, result.1.slotName = some slotName → slotName ∈ given
  distinct : results.Pairwise fun result other => result.2.isSome = true ∨ other.2.isSome = true →
    result.1.named = true → other.1.named = true → result.1.slotName ≠ other.1.slotName

/-- The slots the pass gives are new. -/
theorem inferSlots_named {layout : Layout} {index count : Nat} {used : List String}
    {enemies : List (EnemySpec α)} {results : List (EnemySpec α × Option ManifestRow)}
    (h : inferSlots layout index count used enemies = .ok results)
    (hused : ∀ slotName ∈ names enemies, slotName ∈ used) :
    Named used (names enemies) results := by
  -- The induction is on the enemies, with the names that are used when the rest is looked at.
  induction enemies generalizing index count used results with
  | nil =>
      cases h
      exact ⟨fun _ hr => (nomatch hr), fun _ hr => (nomatch hr), .nil⟩
  | cons enemy rest ih =>
      have hrestUsed : ∀ slotName ∈ names rest, slotName ∈ used := by
        intro slotName hname
        rcases mem_names.mp hname with ⟨other, hmem, hother⟩
        exact hused _ (mem_names.mpr ⟨other, List.mem_cons_of_mem _ hmem, hother⟩)
      have hlater : ∀ {slotName}, slotName ∈ names rest → slotName ∈ names (enemy :: rest) := by
        intro slotName hname
        rcases mem_names.mp hname with ⟨other, hmem, hother⟩
        exact mem_names.mpr ⟨other, List.mem_cons_of_mem _ hmem, hother⟩
      unfold inferSlots at h
      -- An enemy with a name is passed over, and its name is one of those used from the start.
      by_cases hnamed : enemy.named = true
      · rw [if_pos hnamed] at h
        rcases (Except.map_eq_ok _ _ _).mp h with ⟨results, hrest, rfl⟩
        have htail := ih hrest hrestUsed
        rcases EnemySpec.named_iff.mp hnamed with ⟨name, hname, _⟩
        have hmem : name ∈ names (enemy :: rest) :=
          mem_names.mpr ⟨enemy, List.mem_cons_self, hnamed, hname⟩
        refine ⟨fun result hr hsome => ?_, fun result hr hnone hresult slotName hslot => ?_,
          .cons (fun other hother heither _ _ heq => ?_) htail.distinct⟩
        · rcases List.mem_cons.mp hr with rfl | hr
          · cases hsome
          · exact htail.inferred result hr hsome
        · rcases List.mem_cons.mp hr with rfl | hr
          · rw [hname] at hslot
            cases hslot
            exact hmem
          · exact hlater (htail.given result hr hnone hresult slotName hslot)
        · rcases htail.inferred other hother (heither.resolve_left Bool.false_ne_true) with
            ⟨slotName, hslot, hfresh⟩
          rw [hname, hslot] at heq
          cases heq
          exact hfresh (hused _ hmem)
      · rw [if_neg hnamed] at h
        -- An enemy whose kind has no slot is left as it is.
        rcases hverdict : layout count enemy.monsterId with ⟨_ | slot, count'⟩
        · rw [hverdict] at h
          rcases (Except.map_eq_ok _ _ _).mp h with ⟨results, hrest, rfl⟩
          have htail := ih hrest hrestUsed
          refine ⟨fun result hr hsome => ?_, fun result hr hnone hresult slotName hslot => ?_,
            .cons (fun other _ _ hresult => absurd hresult hnamed) htail.distinct⟩
          · rcases List.mem_cons.mp hr with rfl | hr
            · cases hsome
            · exact htail.inferred result hr hsome
          · rcases List.mem_cons.mp hr with rfl | hr
            · exact absurd hresult hnamed
            · exact hlater (htail.given result hr hnone hresult slotName hslot)
        · rw [hverdict] at h
          dsimp only at h
          -- A name that is used already refuses the whole pass.
          by_cases hfresh : slot.slotName ∈ used
          · rw [if_pos hfresh] at h
            cases h
          · rw [if_neg hfresh] at h
            rcases (Except.map_eq_ok _ _ _).mp h with ⟨results, hrest, rfl⟩
            have htail := ih hrest fun name hname => List.mem_cons_of_mem _ (hrestUsed name hname)
            refine ⟨fun result hr hsome => ?_, fun result hr hnone hresult slotName hslot => ?_,
              .cons (fun other hother _ _ hotherNamed heq => ?_) htail.distinct⟩
            · rcases List.mem_cons.mp hr with rfl | hr
              · exact ⟨slot.slotName, rfl, hfresh⟩
              · rcases htail.inferred result hr hsome with ⟨slotName, hslot, hnot⟩
                exact ⟨slotName, hslot, fun hmem => hnot (List.mem_cons_of_mem _ hmem)⟩
            · rcases List.mem_cons.mp hr with rfl | hr
              · cases hnone
              · exact hlater (htail.given result hr hnone hresult slotName hslot)
            · -- The other one was filled in later, or has a name that is given.
              rcases hsome : other.2.isSome with _ | _
              · exact hfresh (hrestUsed _ (htail.given other hother hsome hotherNamed slot.slotName
                  heq.symm))
              · rcases htail.inferred other hother hsome with ⟨slotName, hslot, hnot⟩
                rw [hslot] at heq
                cases heq
                exact hnot List.mem_cons_self

/-- What a pass makes of one enemy, and its row in the manifest. -/
structure Filled (index : Nat) (enemy enemy' : EnemySpec α) (row : ManifestRow) : Prop where
  onlyName : { enemy' with slotName := enemy.slotName } = enemy
  kept : enemy.named = true ∨ enemy'.named = false → enemy' = enemy
  enemyIndex : row.enemyIndex = index
  monsterId : row.monsterId = enemy.monsterId
  slotName : row.slotName = enemy'.slotName
  given : row.source = .sourceHistory ↔ enemy.named = true
  unavailable : row.source = .unavailable ↔ enemy'.named = false

/-- What an outcome fills in. -/
theorem Outcome.filled {index : Nat} {enemy : EnemySpec α}
    {result : EnemySpec α × Option ManifestRow} (h : Outcome index enemy result) :
    Filled index enemy result.1 (rowOf index enemy result) := by
  unfold rowOf
  cases h with
  | given h =>
      rw [if_pos h]
      exact ⟨rfl, fun _ => rfl, rfl, rfl, rfl, ⟨fun _ => h, fun _ => rfl⟩,
        ⟨fun hsource => (nomatch hsource), fun hnot => by rw [h] at hnot; cases hnot⟩⟩
  | inferred h slot hslot hsource =>
      have hfilled : ({ enemy with slotName := some slot.slotName } : EnemySpec α).named = true :=
        EnemySpec.named_iff.mpr ⟨_, rfl, hslot⟩
      rw [if_neg (by rw [h]; exact Bool.false_ne_true)]
      refine ⟨rfl, fun hkept => ?_, rfl, rfl, rfl, ⟨fun hrow => ?_, fun hnamed => ?_⟩,
        ⟨fun hrow => ?_, fun hnot => ?_⟩⟩
      · rcases hkept with hnamed | hnot
        · rw [h] at hnamed
          cases hnamed
        · rw [hfilled] at hnot
          cases hnot
      · rcases hsource with hsource | hsource <;> exact absurd (hsource.symm.trans hrow) (by decide)
      · rw [h] at hnamed
        cases hnamed
      · rcases hsource with hsource | hsource <;> exact absurd (hsource.symm.trans hrow) (by decide)
      · rw [hfilled] at hnot
        cases hnot
  | left h =>
      rw [if_neg (by rw [h]; exact Bool.false_ne_true)]
      exact ⟨rfl, fun _ => rfl, rfl, rfl, rfl,
        ⟨fun hsource => (nomatch hsource), fun hnamed => by rw [h] at hnamed; cases hnamed⟩,
        ⟨fun _ => h, fun _ => rfl⟩⟩

/-- An inferred slot is no other enemy's. -/
theorem Named.ne_of_inferred {used given : List String}
    {results : List (EnemySpec α × Option ManifestRow)} (h : Named used given results) {i j : Nat}
    {result other : EnemySpec α × Option ManifestRow} (hi : results[i]? = some result)
    (hj : results[j]? = some other) (hne : j ≠ i) (hinferred : result.2.isSome = true)
    (hnamed : result.1.named = true) : other.1.slotName ≠ result.1.slotName := by
  rcases List.getElem?_eq_some_iff.mp hi with ⟨hiLt, rfl⟩
  rcases List.getElem?_eq_some_iff.mp hj with ⟨hjLt, rfl⟩
  intro heq
  have hother : results[j].1.named = true := by
    rcases EnemySpec.named_iff.mp hnamed with ⟨slotName, hname, hslot⟩
    exact EnemySpec.named_iff.mpr ⟨slotName, heq.trans hname, hslot⟩
  rcases Nat.lt_or_gt_of_ne hne with hlt | hlt
  · exact List.pairwise_iff_getElem.mp h.distinct j i hjLt hiLt hlt (.inr hinferred) hother hnamed
      heq
  · exact List.pairwise_iff_getElem.mp h.distinct i j hiLt hjLt hlt (.inl hinferred) hnamed hother
      heq.symm

/-- What a pass leaves: one row for each enemy, which says how its slot was come by, and an
    inferred slot that no other enemy has. -/
theorem slot_names_inferred {spec spec' : ScenarioSpec α}
    (h : ensureInferredSlotNames spec = .ok spec') :
    ∃ manifest, spec'.slotNameManifest = some manifest ∧
      manifest.length = spec.enemies.length ∧ spec'.enemies.length = spec.enemies.length ∧
      ∀ (i : Nat) (enemy : EnemySpec α), spec.enemies[i]? = some enemy →
        ∃ enemy' row, spec'.enemies[i]? = some enemy' ∧ manifest[i]? = some row ∧
          Filled i enemy enemy' row ∧
          (enemy.named = false → enemy'.named = true →
            ∀ j, j ≠ i → ∀ other : EnemySpec α, spec'.enemies[j]? = some other →
              other.slotName ≠ enemy'.slotName) := by
  rcases inferSlots_of_ensure h with ⟨results, hresults, hfits, rfl⟩
  -- The names that are given are used from the start.
  have hnamed := inferSlots_named hresults fun slotName hname => by
    rw [filterMap_givenRows]
    exact hname
  refine ⟨_, rfl, ?_, ?_, fun i enemy hget => ?_⟩
  · exact length_rowsOf hfits
  · exact (List.length_map _).trans hfits.length_eq
  · rcases hfits.at_index hget with ⟨result, hresult, houtcome, hrow⟩
    rw [Nat.zero_add] at houtcome hrow
    have hget' : (results.map (·.1))[i]? = some result.1 := by
      rw [List.getElem?_map, hresult]
      rfl
    refine ⟨result.1, rowOf i enemy result, hget', hrow, houtcome.filled,
      fun hwas hnow j hne other hother => ?_⟩
    -- An enemy that had no name and has one now was filled in by the pass.
    have hinferred : result.2.isSome = true := by
      cases houtcome with
      | given hgiven => rw [hgiven] at hwas; cases hwas
      | inferred _ _ _ _ => rfl
      | left hleft => rw [hleft] at hnow; cases hnow
    rw [List.getElem?_map] at hother
    rcases Option.map_eq_some_iff.mp hother with ⟨otherResult, hotherGet, rfl⟩
    exact hnamed.ne_of_inferred hresult hotherGet hne hinferred hnow

/-- The first exoskeleton is the only one of that name, and the last has none. -/
theorem slot_names_inferred_small :
    ∃ spec' manifest, ensureInferredSlotNames exoskeletonSpec = .ok spec' ∧
      spec'.slotNameManifest = some manifest ∧ manifest.length = 4 ∧
      spec'.enemies.map (·.slotName) = [some "first", some "second", some "third", none] ∧
      manifest.map (·.source) =
        [.inferredFromOrder, .inferredFromOrder, .inferredFromOrder, .unavailable] := by
  rcases slot_names_inferred ensureInferredSlotNames_exoskeletonSpec with
    ⟨manifest, hmanifest, hlength, -, -⟩
  refine ⟨_, manifest, ensureInferredSlotNames_exoskeletonSpec, hmanifest, hlength, by decide, ?_⟩
  cases hmanifest
  decide

end Distinct

/-!
### A second pass

The names of the first pass are found given, and an enemy that a layout had no slot for is
counted from the first slot again, which is taken.
-/

section Again

/-- An enemy without a name that is of a kind the layout has slots for. -/
def Surplus (spec : ScenarioSpec α) (enemy : EnemySpec α) : Prop :=
  enemy.named = false ∧ (layoutOf (encounterName spec) 0 enemy.monsterId).1 ≠ none

/-- A surplus monster comes after others, the first of which got the slot it would get. -/
theorem inferSlots_surplus {layout : Layout} {first : String} (hlayout : layout.Regular first)
    {index count : Nat} {used : List String} {enemies : List (EnemySpec α)}
    {results : List (EnemySpec α × Option ManifestRow)}
    (h : inferSlots layout index count used enemies = .ok results)
    (hcount : 0 < count → first ∈ used) :
    ∀ result ∈ results, result.1.named = false → ∀ slot,
      (layout 0 result.1.monsterId).1 = some slot → slot.slotName ∈ used ∨
        ∃ other ∈ results, other.1.slotName = some slot.slotName := by
  -- The induction is on the enemies. What is carried along is that the first name is used as
  -- soon as an enemy of the kind was counted.
  induction enemies generalizing index count used results with
  | nil =>
      cases h
      exact fun _ hr => nomatch hr
  | cons enemy rest ih =>
      unfold inferSlots at h
      -- An enemy with a name is not counted.
      by_cases hnamed : enemy.named = true
      · rw [if_pos hnamed] at h
        rcases (Except.map_eq_ok _ _ _).mp h with ⟨results, hrest, rfl⟩
        intro result hr hunnamed slot hslot
        rcases List.mem_cons.mp hr with rfl | hr
        · rw [hnamed] at hunnamed
          cases hunnamed
        · exact (ih hrest hcount result hr hunnamed slot hslot).imp_right
            fun ⟨other, hmem, hother⟩ =>
            ⟨other, List.mem_cons_of_mem _ hmem, hother⟩
      · rw [if_neg hnamed] at h
        -- An enemy that gets none has a kind without slots, or comes after the slots are used
        -- up.
        rcases hverdict : layout count enemy.monsterId with ⟨_ | slot₀, count'⟩
        · rw [hverdict] at h
          rcases (Except.map_eq_ok _ _ _).mp h with ⟨results, hrest, rfl⟩
          have hnone : (layout count enemy.monsterId).1 = none := by rw [hverdict]
          have hcount' : 0 < count' → first ∈ used := by
            rcases hzero : (layout 0 enemy.monsterId).1 with _ | slot
            · have hidle := hlayout.idle enemy.monsterId hzero count
              rw [hverdict] at hidle
              cases hidle
              exact hcount
            · exact fun _ => hcount (hlayout.surplus count enemy.monsterId slot hzero hnone).1
          intro result hr hunnamed slot hslot
          rcases List.mem_cons.mp hr with rfl | hr
          · rcases hlayout.surplus count enemy.monsterId slot hslot hnone with ⟨hpos, hfirst⟩
            rw [hfirst]
            exact .inl (hcount hpos)
          · exact (ih hrest hcount' result hr hunnamed slot hslot).imp_right
              fun ⟨other, hmem, hother⟩ => ⟨other, List.mem_cons_of_mem _ hmem, hother⟩
        · rw [hverdict] at h
          dsimp only at h
          split at h
          · cases h
          · rcases (Except.map_eq_ok _ _ _).mp h with ⟨results, hrest, rfl⟩
            have hcount' : 0 < count' → first ∈ slot₀.slotName :: used := by
              intro hpos
              rcases Nat.eq_zero_or_pos count with rfl | hcountPos
              · rcases hlayout.counted enemy.monsterId (by rw [hverdict]; exact hpos) with
                  ⟨slot, hslot, hfirst⟩
                rw [hverdict] at hslot
                cases hslot
                rw [hfirst]
                exact List.mem_cons_self
              · exact List.mem_cons_of_mem _ (hcount hcountPos)
            intro result hr hunnamed slot hslot
            rcases List.mem_cons.mp hr with rfl | hr
            · rcases hlayout.names count enemy.monsterId slot₀ (by rw [hverdict]) with ⟨hne, _⟩
              have hfilled : ({ enemy with slotName := some slot₀.slotName } : EnemySpec α).named =
                  true := EnemySpec.named_iff.mpr ⟨_, rfl, hne⟩
              rw [hfilled] at hunnamed
              cases hunnamed
            · rcases ih hrest hcount' result hr hunnamed slot hslot with hused |
                ⟨other, hmem, hother⟩
              · rcases List.mem_cons.mp hused with heq | hused
                · exact .inr ⟨_, List.mem_cons_self, congrArg some heq.symm⟩
                · exact .inl hused
              · exact .inr ⟨other, List.mem_cons_of_mem _ hmem, hother⟩

/-- With every name given, nothing is left to fill in. -/
theorem inferSlots_idle {layout : Layout} {first : String} (hlayout : layout.Regular first)
    (index : Nat) (used : List String) {enemies : List (EnemySpec α)}
    (h : ∀ enemy ∈ enemies, enemy.named = true ∨ (layout 0 enemy.monsterId).1 = none) :
    inferSlots layout index 0 used enemies = .ok (enemies.map (·, none)) := by
  induction enemies generalizing index with
  | nil => rfl
  | cons enemy rest ih =>
      have hrest := ih (index + 1) fun other hmem => h other (List.mem_cons_of_mem _ hmem)
      unfold inferSlots
      rcases h enemy List.mem_cons_self with hnamed | hnone
      · rw [if_pos hnamed, hrest]
        rfl
      · rw [hlayout.idle enemy.monsterId hnone 0]
        dsimp only
        rw [hrest, ite_self]
        rfl

/-- A monster that would get a slot that is taken is refused. -/
theorem inferSlots_refused {layout : Layout} {first : String} (hlayout : layout.Regular first)
    (index : Nat) {used : List String} {enemies : List (EnemySpec α)}
    (hused : ∀ enemy ∈ enemies, enemy.named = false → ∀ slot,
      (layout 0 enemy.monsterId).1 = some slot → slot.slotName ∈ used)
    (h : ∃ enemy ∈ enemies, enemy.named = false ∧ (layout 0 enemy.monsterId).1 ≠ none) :
    ∃ slotName ∈ used, inferSlots layout index 0 used enemies =
      .error (duplicateSlot slotName) := by
  induction enemies generalizing index with
  | nil =>
      rcases h with ⟨_, hmem, _⟩
      exact nomatch hmem
  | cons enemy rest ih =>
      have hrest : (∃ other ∈ rest, other.named = false ∧ (layout 0 other.monsterId).1 ≠ none) →
          ∃ slotName ∈ used,
            inferSlots layout (index + 1) 0 used rest = .error (duplicateSlot slotName) :=
        ih (index + 1) fun other hmem => hused other (List.mem_cons_of_mem _ hmem)
      unfold inferSlots
      by_cases hnamed : enemy.named = true
      · rw [if_pos hnamed]
        rcases hrest (by
          rcases h with ⟨other, hmem, hother⟩
          rcases List.mem_cons.mp hmem with rfl | hmem
          · rw [hnamed] at hother
            cases hother.1
          · exact ⟨other, hmem, hother⟩) with ⟨slotName, hmem, heq⟩
        exact ⟨slotName, hmem, by rw [heq]; rfl⟩
      · rw [if_neg hnamed]
        rcases hzero : (layout 0 enemy.monsterId).1 with _ | slot
        · rw [hlayout.idle enemy.monsterId hzero 0]
          dsimp only
          rcases hrest (by
            rcases h with ⟨other, hmem, hother⟩
            rcases List.mem_cons.mp hmem with rfl | hmem
            · exact absurd hzero hother.2
            · exact ⟨other, hmem, hother⟩) with ⟨slotName, hmem, heq⟩
          exact ⟨slotName, hmem, by rw [heq]; rfl⟩
        · have hslot := hused enemy List.mem_cons_self (Bool.eq_false_iff.mpr hnamed) slot hzero
          rcases hverdict : layout 0 enemy.monsterId with ⟨verdict, count⟩
          rw [hverdict] at hzero
          cases hzero
          exact ⟨slot.slotName, hslot, if_pos hslot⟩

theorem rowsOf_idle (index : Nat) (enemies : List (EnemySpec α)) :
    rowsOf index enemies (enemies.map (·, none)) = enemies.mapIdx fun i enemy =>
      if enemy.named then givenRow (index + i) enemy else missingRow (index + i) enemy := by
  induction enemies generalizing index with
  | nil => rfl
  | cons enemy rest ih =>
      rw [List.map_cons, rowsOf, ih, List.mapIdx_cons]
      refine congrArg₂ List.cons rfl (congrArg (List.mapIdx · rest) ?_)
      funext i other
      have hindex : index + (i + 1) = index + 1 + i := by omega
      rw [hindex]

/-- A name that is given is still given after a pass. -/
theorem Fits.names_subset {index : Nat} {enemies : List (EnemySpec α)}
    {results : List (EnemySpec α × Option ManifestRow)} (h : Fits index enemies results)
    {slotName : String} (hname : slotName ∈ names enemies) :
    slotName ∈ names (results.map (·.1)) := by
  rcases mem_names.mp hname with ⟨enemy, hmem, hnamed, hslot⟩
  rcases List.getElem?_of_mem hmem with ⟨i, hget⟩
  rcases h.at_index hget with ⟨result, hresult, houtcome, _⟩
  have hkept := houtcome.filled.kept (.inl hnamed)
  refine mem_names.mpr ⟨result.1, List.mem_map_of_mem (List.mem_of_getElem? hresult), ?_, ?_⟩
  · rw [hkept]
    exact hnamed
  · rw [hkept]
    exact hslot

/-- What a second pass does. It changes no enemy, and takes every name for one that the history
    gave. It is refused where a layout is out of slots. -/
theorem slot_names_again {spec spec' : ScenarioSpec α}
    (h : ensureInferredSlotNames spec = .ok spec') :
    ((∀ enemy ∈ spec'.enemies, ¬ Surplus spec' enemy) →
      ensureInferredSlotNames spec' = .ok { spec' with
        slotNameManifest := some (spec'.enemies.mapIdx fun i enemy =>
          if enemy.named then givenRow i enemy else missingRow i enemy) }) ∧
    ((∃ enemy ∈ spec'.enemies, Surplus spec' enemy) →
      ∃ slotName ∈ names spec'.enemies,
        ensureInferredSlotNames spec' = .error (duplicateSlot slotName)) := by
  rcases inferSlots_of_ensure h with ⟨results, hresults, hfits, rfl⟩
  rcases layoutOf_regular (encounterName spec) with ⟨first, hregular⟩
  constructor
  · intro hnone
    have hidle : ∀ enemy ∈ results.map (·.1), enemy.named = true ∨
        (layoutOf (encounterName spec) 0 enemy.monsterId).1 = none := by
      intro enemy hmem
      rcases hnamed : enemy.named with _ | _
      · exact .inr (by_contra fun hslot => hnone enemy hmem ⟨hnamed, hslot⟩)
      · exact .inl rfl
    let spec' : ScenarioSpec α := { spec with
      enemies := results.map (·.1)
      slotNameManifest := some (rowsOf 0 spec.enemies results) }
    have hsecond : inferSlots (layoutOf (encounterName spec')) 0 0
        ((givenRows 0 spec'.enemies).filterMap (·.slotName)) spec'.enemies =
          .ok (spec'.enemies.map (·, none)) := inferSlots_idle hregular 0 _ hidle
    refine (ensureInferredSlotNames_eq hsecond).2.trans ?_
    rw [rowsOf_idle]
    simp [spec']
  · intro hsurplus
    -- What a surplus monster would be called, another one is called.
    have htaken : ∀ enemy ∈ results.map (·.1), enemy.named = false → ∀ slot,
        (layoutOf (encounterName spec) 0 enemy.monsterId).1 = some slot →
          slot.slotName ∈ names (results.map (·.1)) := by
      intro enemy hmem hunnamed slot hslot
      rcases List.mem_map.mp hmem with ⟨result, hresult, rfl⟩
      rcases inferSlots_surplus hregular hresults (fun hpos => absurd hpos (Nat.lt_irrefl 0)) result
        hresult hunnamed slot hslot with hgiven | ⟨other, hother, hname⟩
      · rw [filterMap_givenRows] at hgiven
        exact hfits.names_subset hgiven
      · have hne := (hregular.names 0 result.1.monsterId slot hslot).1
        exact mem_names.mpr ⟨other.1, List.mem_map_of_mem hother,
          EnemySpec.named_iff.mpr ⟨slot.slotName, hname, hne⟩, hname⟩
    rcases inferSlots_refused hregular 0 htaken hsurplus with ⟨slotName, hname, hrefused⟩
    refine ⟨slotName, hname, ?_⟩
    unfold ensureInferredSlotNames
    dsimp only
    rw [filterMap_givenRows]
    exact congrArg (· >>= _) hrefused

/-- The last exoskeleton is called like the first one in the second pass. -/
theorem slot_names_again_small :
    ∃ spec', ensureInferredSlotNames exoskeletonSpec = .ok spec' ∧
      ∃ slotName ∈ names spec'.enemies,
        ensureInferredSlotNames spec' = .error (duplicateSlot slotName) :=
  ⟨_, ensureInferredSlotNames_exoskeletonSpec,
    (slot_names_again ensureInferredSlotNames_exoskeletonSpec).2
      ⟨⟨some "EXOSKELETON", none, ()⟩, by decide, by decide, by decide⟩⟩

end Again

end SlotNames

end Combat

end STS2RL
