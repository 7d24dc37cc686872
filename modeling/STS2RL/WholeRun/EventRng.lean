import STS2RL.Api.Identifiers
import STS2RL.Core.Act

/-!
# Event RNG Hypotheses

An event branch with a positive rng id is played under random streams derived
from the live ones. Branches of one decision with one rng id share the derived
streams, which are kept as long as one of these branches does.

A generation counts the times a hypothesis was set up anew. It survives the
hypothesis, so only a transaction that nobody saw puts it back.

## Main definitions

* `EventRngState`, `deriveEventRngHypothesis`: The streams, and those of a
  hypothesis.
* `EventRngHypothesisRegistry`: The hypotheses that are live, and for whom.
* `EventRngHypothesisRegistry.Owned`: A hypothesis is there for some branch.
* `EventRngHypothesisRegistry.refsOf`: The branches it is there for.

## Theorems

* `releaseBranch_commitBranch`: Releasing the branch that was committed last.
* `Owned.commitBranch`, `Owned.releaseBranch`: The invariant is kept.
* `refsOf_commitBranch`, `refsOf_releaseBranch`: Who holds on to what.
* `commitBranch_isOk`: When a branch can be committed.
-/

namespace STS2RL

namespace WholeRun

open Api (PyError RngKey)

/-- One random stream. -/
structure RngStream where
  counter : Int
  s0 : Nat
  s1 : Nat
  s2 : Nat
  s3 : Nat
  deriving DecidableEq

/-- `get_event_rng_state`. -/
structure EventRngState where
  eventId : String
  eventRng : RngStream
  playerRewardsRng : RngStream
  playerShopsRng : RngStream
  playerTransformationsRng : RngStream
  deriving DecidableEq

/-!
### Deriving a hypothesis

A hypothesis is derived from the streams of the root and the key of the decision.
-/

section Derivation

variable (sha256 : String → List Nat)

/-- `_canonical_stream_seed`. -/
def canonicalStreamSeed (eventId streamName : String) (stream : RngStream) (rngId : Int) : String :=
  "|".intercalate [eventId, streamName, toString rngId, toString stream.counter,
    toString stream.s0, toString stream.s1, toString stream.s2, toString stream.s3]

/-- `int.from_bytes(…, "big")`. -/
def fromBytes (bytes : List Nat) : Nat := bytes.foldl (fun value byte => value * 256 + byte) 0

/-- `_hash_word`. -/
def hashWord (seed wordName : String) : List Nat := sha256 (seed ++ "|word=" ++ wordName)

/-- `_counter_from_digest`. -/
def counterFromDigest (digest : List Nat) : Int :=
  let value := fromBytes (digest.take 4)
  if 2 ^ 31 ≤ value then (value : Int) - 2 ^ 32 else value

/-- `_u64_from_digest`. -/
def u64FromDigest (digest : List Nat) : Nat := fromBytes (digest.take 8) % 2 ^ 64

/-- One stream of a hypothesis. The all-zero state is avoided. -/
def deriveStream (eventId streamName : String) (rngId : Int) (stream : RngStream) : RngStream :=
  let seed := canonicalStreamSeed eventId streamName stream rngId
  let s0 := u64FromDigest (hashWord sha256 seed "s0")
  let s1 := u64FromDigest (hashWord sha256 seed "s1")
  let s2 := u64FromDigest (hashWord sha256 seed "s2")
  let s3 := u64FromDigest (hashWord sha256 seed "s3")
  { counter := counterFromDigest (hashWord sha256 seed "counter")
    s0 := if s0 = 0 ∧ s1 = 0 ∧ s2 = 0 ∧ s3 = 0 then 1 else s0
    s1, s2, s3 }

/-- `derive_event_rng_hypothesis`. -/
def deriveEventRngHypothesis (base : EventRngState) (rngId : Int) :
    Except PyError EventRngState :=
  if rngId ≤ 0 then .error (.raised "ValueError" "rng_id must be a positive int")
  else
    let derive := fun name => deriveStream sha256 base.eventId name rngId
    .ok { eventId := base.eventId
          eventRng := derive "event_rng" base.eventRng
          playerRewardsRng := derive "player_rewards_rng" base.playerRewardsRng
          playerShopsRng := derive "player_shops_rng" base.playerShopsRng
          playerTransformationsRng :=
            derive "player_transformations_rng" base.playerTransformationsRng }

end Derivation

/-- `_HypothesisEntry`. -/
structure HypothesisEntry where
  state : EventRngState
  generation : Nat
  deriving DecidableEq

/-- `EventRngHypothesisRegistry`. -/
structure EventRngHypothesisRegistry where
  entries : Dict RngKey HypothesisEntry := Dict.empty
  branchRefsByKey : Dict RngKey (Finset PyStr) := Dict.empty
  generationCounts : Dict RngKey Nat := Dict.empty

namespace EventRngHypothesisRegistry

variable (registry : EventRngHypothesisRegistry)

/-- `prepare_state`. -/
def prepareState (sha256 : String → List Nat) (key : RngKey) (base : EventRngState) (rngId : Int) :
    Except PyError EventRngState :=
  match registry.entries.get? key with
  | some entry => .ok entry.state
  | none => deriveEventRngHypothesis sha256 base rngId

/-- `self._generation_counts.get(key, 0)`. -/
def generationOf (key : RngKey) : Nat := (registry.generationCounts.get? key).getD 0

/-- `_ensure_entry`. -/
def ensureEntry (key : RngKey) (state : EventRngState) :
    Except PyError EventRngHypothesisRegistry :=
  match registry.entries.get? key with
  | some entry =>
      if entry.state ≠ state then
        .error (.raised "RuntimeError" "prepared Event RNG state no longer matches live hypothesis")
      else .ok registry
  | none =>
      let generation := registry.generationOf key + 1
      .ok { registry with
        generationCounts := registry.generationCounts.set key generation
        entries := registry.entries.set key ⟨state, generation⟩ }

/-- `register_branch`. -/
def registerBranch (key : RngKey) (branchId : PyStr) : EventRngHypothesisRegistry :=
  { registry with
    branchRefsByKey := registry.branchRefsByKey.set key
      (insert branchId ((registry.branchRefsByKey.get? key).getD ∅)) }

/-- `commit_branch`. -/
def commitBranch (key : RngKey) (state : EventRngState) (branchId : PyStr) :
    Except PyError EventRngHypothesisRegistry :=
  (registry.ensureEntry key state).map fun ensured => ensured.registerBranch key branchId

/-- `release_branch`. -/
def releaseBranch (key : RngKey) (branchId : PyStr) : EventRngHypothesisRegistry :=
  match registry.branchRefsByKey.get? key with
  | some refs =>
      if refs.erase branchId = ∅ then
        { registry with
          branchRefsByKey := registry.branchRefsByKey.erase key
          entries := registry.entries.erase key }
      else
        { registry with
          branchRefsByKey := registry.branchRefsByKey.set key (refs.erase branchId) }
  | none => { registry with entries := registry.entries.erase key }

/-- `release_all`. -/
def releaseAll : EventRngHypothesisRegistry :=
  { registry with entries := Dict.empty, branchRefsByKey := Dict.empty }

/-- `snapshot_generations`. -/
def snapshotGenerations (keys : List RngKey) : List (RngKey × Nat) :=
  keys.dedup.map fun key => (key, registry.generationOf key)

/-- One turn of the loop of `restore_generations`. -/
def restoreGeneration (saved : RngKey × Nat) : Except PyError EventRngHypothesisRegistry :=
  if registry.generationOf saved.1 < saved.2 then
    .error (.raised "RuntimeError" "Event RNG generation cannot be restored forward")
  else
    .ok { registry with
      generationCounts :=
        if saved.2 = 0 then registry.generationCounts.erase saved.1
        else registry.generationCounts.set saved.1 saved.2 }

/-- `restore_generations`. -/
def restoreGenerations : List (RngKey × Nat) → Act PyError EventRngHypothesisRegistry Unit :=
  Act.forEach fun saved => do
    let registry ← Act.get
    let restored ← Act.ofExcept (registry.restoreGeneration saved)
    Act.modify fun _ => restored

/-- A hypothesis is live for some branch, and every branch was used. -/
structure Owned (used : Finset PyStr) : Prop where
  live : ∀ key, (registry.entries.get? key).isSome = (registry.branchRefsByKey.get? key).isSome
  nonempty : ∀ key refs, registry.branchRefsByKey.get? key = some refs → refs ≠ ∅
  used : ∀ key refs, registry.branchRefsByKey.get? key = some refs → refs ⊆ used
  counted : ∀ key count, registry.generationCounts.get? key = some count → count ≠ 0

variable {registry} {used : Finset PyStr} {key : RngKey} {state : EventRngState}
  {branchId : PyStr}

theorem owned_new : Owned {} used where
  live _ := rfl
  nonempty _ _ h := by cases h
  used _ _ h := by cases h
  counted _ _ h := by cases h

theorem Owned.mono (h : registry.Owned used) {used' : Finset PyStr} (hused : used ⊆ used') :
    registry.Owned used' :=
  { h with used := fun key refs hrefs => (h.used key refs hrefs).trans hused }

theorem Owned.releaseAll (h : registry.Owned used) : registry.releaseAll.Owned used where
  live _ := rfl
  nonempty _ _ h := by cases h
  used _ _ h := by cases h
  counted := h.counted

/-- What `_ensure_entry` comes to: the entry that is there, or a new one. -/
theorem ensureEntry_eq_ok {ensured : EventRngHypothesisRegistry}
    (h : registry.ensureEntry key state = .ok ensured) :
    (∃ generation, registry.entries.get? key = some ⟨state, generation⟩ ∧ ensured = registry) ∨
    (registry.entries.get? key = none ∧ ensured = { registry with
      generationCounts := registry.generationCounts.set key (registry.generationOf key + 1)
      entries := registry.entries.set key ⟨state, registry.generationOf key + 1⟩ }) := by
  unfold ensureEntry at h
  cases hentry : registry.entries.get? key with
  | some entry =>
      rcases entry with ⟨state', generation⟩
      rw [hentry] at h
      by_cases hstate : state' = state
      · simp only [hstate, ne_eq, not_true_eq_false, if_false, Except.ok.injEq] at h
        exact .inl ⟨generation, by rw [hstate], h.symm⟩
      · simp [hstate] at h
  | none =>
      rw [hentry] at h
      exact .inr ⟨rfl, (Except.ok.inj h).symm⟩

theorem commitBranch_eq_ok {committed : EventRngHypothesisRegistry}
    (h : registry.commitBranch key state branchId = .ok committed) :
    ∃ ensured, registry.ensureEntry key state = .ok ensured ∧
      committed = ensured.registerBranch key branchId := by
  rcases (Except.map_eq_ok _ _ _).mp h with ⟨ensured, hensured, heq⟩
  exact ⟨ensured, hensured, heq.symm⟩

/-- Releasing the branch that was committed last brings the live hypotheses back.
    Only the count of the generations stays. -/
theorem releaseBranch_commitBranch (howned : registry.Owned used) (hnew : branchId ∉ used)
    {committed : EventRngHypothesisRegistry}
    (h : registry.commitBranch key state branchId = .ok committed) :
    committed.releaseBranch key branchId =
      { registry with generationCounts := committed.generationCounts } := by
  rcases commitBranch_eq_ok h with ⟨ensured, hensured, rfl⟩
  unfold releaseBranch registerBranch
  rw [Dict.get?_set_self]
  dsimp only
  rcases ensureEntry_eq_ok hensured with ⟨generation, hentry, rfl⟩ | ⟨hentry, rfl⟩
  · -- The hypothesis was live, so another branch keeps it.
    have hlive := howned.live key
    rw [hentry, Option.isSome_some] at hlive
    rcases Option.isSome_iff_exists.mp hlive.symm with ⟨refs, hrefs⟩
    have hnotin : branchId ∉ refs := fun hmem => hnew (howned.used key refs hrefs hmem)
    rw [hrefs, Option.getD_some, Finset.erase_insert hnotin,
      if_neg (howned.nonempty key refs hrefs), Dict.set_set, Dict.set_of_get? _ hrefs]
  · have hlive := howned.live key
    rw [hentry, Option.isSome_none] at hlive
    have hrefs : registry.branchRefsByKey.get? key = none := by
      simpa using hlive.symm
    rw [hrefs, Option.getD_none, Finset.erase_insert (Finset.notMem_empty _), if_pos rfl,
      Dict.erase_set_of_none _ _ hrefs, Dict.erase_set_of_none _ _ hentry]

/-- A commit adds a reference to the entry of its key. -/
theorem Owned.commitBranch (howned : registry.Owned used) {committed : EventRngHypothesisRegistry}
    (h : registry.commitBranch key state branchId = .ok committed) :
    committed.Owned (insert branchId used) := by
  rcases commitBranch_eq_ok h with ⟨ensured, hensured, rfl⟩
  -- The key has an entry now, whether it had one before or not.
  have hensures : ∀ key', (ensured.entries.get? key').isSome =
      if key' = key then true else (registry.entries.get? key').isSome := by
    intro key'
    rcases ensureEntry_eq_ok hensured with ⟨generation, hentry, rfl⟩ | ⟨hentry, rfl⟩
    · by_cases hkey : key' = key
      · rw [if_pos hkey, hkey, hentry, Option.isSome_some]
      · rw [if_neg hkey]
    · dsimp only
      rw [Dict.get?_set]
      by_cases hkey : key' = key <;> simp [hkey]
  have hsame : ensured.branchRefsByKey = registry.branchRefsByKey := by
    rcases ensureEntry_eq_ok hensured with ⟨generation, hentry, rfl⟩ | ⟨hentry, rfl⟩ <;> rfl
  constructor
  -- An entry is there exactly while a branch refers to it.
  · intro key'
    unfold registerBranch
    rw [hensures, hsame, Dict.get?_set]
    by_cases hkey : key' = key
    · simp [hkey]
    · simp [hkey, howned.live key']
  -- No set of references is empty.
  · intro key' refs hrefs
    unfold registerBranch at hrefs
    rw [hsame, Dict.get?_set] at hrefs
    by_cases hkey : key' = key
    · rw [if_pos hkey] at hrefs
      cases hrefs
      exact Finset.insert_ne_empty _ _
    · rw [if_neg hkey] at hrefs
      exact howned.nonempty key' refs hrefs
  -- Only ids in use refer.
  · intro key' refs hrefs
    unfold registerBranch at hrefs
    rw [hsame, Dict.get?_set] at hrefs
    by_cases hkey : key' = key
    · rw [if_pos hkey] at hrefs
      cases hrefs
      refine Finset.insert_subset_insert _ ?_
      cases hget : registry.branchRefsByKey.get? key with
      | none => exact Finset.empty_subset _
      | some refs => exact howned.used key refs hget
    · rw [if_neg hkey] at hrefs
      exact (howned.used key' refs hrefs).trans (Finset.subset_insert _ _)
  -- A generation counts from one.
  · intro key' count hcount
    unfold registerBranch at hcount
    rcases ensureEntry_eq_ok hensured with ⟨generation, hentry, rfl⟩ | ⟨hentry, rfl⟩
    · exact howned.counted key' count hcount
    · dsimp only at hcount
      rw [Dict.get?_set] at hcount
      by_cases hkey : key' = key
      · rw [if_pos hkey] at hcount
        cases hcount
        exact Nat.succ_ne_zero _
      · rw [if_neg hkey] at hcount
        exact howned.counted key' count hcount

/-- A release takes the reference away, and with the last one the entry. -/
theorem Owned.releaseBranch (howned : registry.Owned used) (key : RngKey) (branchId : PyStr) :
    (registry.releaseBranch key branchId).Owned used := by
  unfold EventRngHypothesisRegistry.releaseBranch
  cases hrefs : registry.branchRefsByKey.get? key with
  | none =>
      dsimp only
      -- No branch, no hypothesis.
      have hnone : registry.entries.get? key = none := by
        have hlive := howned.live key
        rw [hrefs] at hlive
        simpa using hlive
      rw [Dict.erase_of_none _ hnone]
      exact howned
  | some refs =>
      dsimp only
      by_cases hempty : refs.erase branchId = ∅
      · rw [if_pos hempty]
        constructor
        · intro key'
          by_cases hkey : key' = key
          · rw [hkey]
            dsimp only
            rw [Dict.get?_erase_self, Dict.get?_erase_self]
            rfl
          · dsimp only
            rw [Dict.get?_erase_ne _ hkey, Dict.get?_erase_ne _ hkey]
            exact howned.live key'
        · intro key' refs' hrefs'
          by_cases hkey : key' = key
          · rw [hkey, Dict.get?_erase_self] at hrefs'
            cases hrefs'
          · rw [Dict.get?_erase_ne _ hkey] at hrefs'
            exact howned.nonempty key' refs' hrefs'
        · intro key' refs' hrefs'
          by_cases hkey : key' = key
          · rw [hkey, Dict.get?_erase_self] at hrefs'
            cases hrefs'
          · rw [Dict.get?_erase_ne _ hkey] at hrefs'
            exact howned.used key' refs' hrefs'
        · exact howned.counted
      · rw [if_neg hempty]
        constructor
        · intro key'
          dsimp only
          rw [Dict.get?_set]
          by_cases hkey : key' = key
          · rw [hkey, howned.live key, hrefs]
            simp
          · rw [if_neg hkey]
            exact howned.live key'
        · intro key' refs' hrefs'
          dsimp only at hrefs'
          rw [Dict.get?_set] at hrefs'
          by_cases hkey : key' = key
          · rw [if_pos hkey] at hrefs'
            cases hrefs'
            exact hempty
          · rw [if_neg hkey] at hrefs'
            exact howned.nonempty key' refs' hrefs'
        · intro key' refs' hrefs'
          dsimp only at hrefs'
          rw [Dict.get?_set] at hrefs'
          by_cases hkey : key' = key
          · rw [if_pos hkey] at hrefs'
            cases hrefs'
            exact (Finset.erase_subset _ _).trans (howned.used key refs hrefs)
          · rw [if_neg hkey] at hrefs'
            exact howned.used key' refs' hrefs'
        · exact howned.counted

/-!
### References

Which branches refer to a key.
-/

section References

/-- The branches that hold on to a hypothesis. -/
def refsOf (registry : EventRngHypothesisRegistry) (key : RngKey) : Finset PyStr :=
  (registry.branchRefsByKey.get? key).getD ∅

theorem Owned.refsOf_subset (howned : registry.Owned used) (key : RngKey) :
    registry.refsOf key ⊆ used := by
  unfold refsOf
  cases hrefs : registry.branchRefsByKey.get? key with
  | none => exact Finset.empty_subset _
  | some refs => exact howned.used key refs hrefs

/-- A hypothesis is there as long as somebody holds on to it. -/
theorem Owned.isSome_iff (howned : registry.Owned used) (key : RngKey) :
    (registry.entries.get? key).isSome ↔ ∃ branchId, branchId ∈ registry.refsOf key := by
  rw [howned.live key]
  unfold refsOf
  cases hrefs : registry.branchRefsByKey.get? key with
  | none => simp
  | some refs =>
      simp only [Option.isSome_some, Option.getD_some, true_iff]
      exact Finset.nonempty_iff_ne_empty.mpr (howned.nonempty key refs hrefs)

/-- The references after a release. -/
theorem refsOf_releaseBranch (key other : RngKey) (branchId : PyStr) :
    (registry.releaseBranch key branchId).refsOf other =
      if other = key then (registry.refsOf key).erase branchId else registry.refsOf other := by
  unfold releaseBranch refsOf
  cases hrefs : registry.branchRefsByKey.get? key with
  | none =>
      by_cases hother : other = key
      · simp [hother, hrefs]
      · simp [hother]
  | some refs =>
      dsimp only
      by_cases hempty : refs.erase branchId = ∅
      · rw [if_pos hempty]
        by_cases hother : other = key
        · simp [hother, hempty]
        · rw [if_neg hother, Dict.get?_erase_ne _ hother]
      · rw [if_neg hempty]
        by_cases hother : other = key
        · simp [hother]
        · rw [if_neg hother, Dict.get?_set_ne _ _ hother]

/-- A hypothesis stays as it is as long as another branch holds on to it. -/
theorem get?_releaseBranch (howned : registry.Owned used) {key other : RngKey} {branchId : PyStr}
    (hheld : ∃ holder, holder ∈ (registry.releaseBranch key branchId).refsOf other) :
    (registry.releaseBranch key branchId).entries.get? other = registry.entries.get? other := by
  have hlive := ((howned.releaseBranch key branchId).isSome_iff other).mpr hheld
  unfold releaseBranch at hlive ⊢
  cases hrefs : registry.branchRefsByKey.get? key with
  | none =>
      rw [hrefs] at hlive
      by_cases hother : other = key
      · simp [hother] at hlive
      · exact Dict.get?_erase_ne _ hother
  | some refs =>
      rw [hrefs] at hlive
      dsimp only at hlive ⊢
      by_cases hempty : refs.erase branchId = ∅
      · rw [if_pos hempty] at hlive ⊢
        by_cases hother : other = key
        · simp [hother] at hlive
        · exact Dict.get?_erase_ne _ hother
      · rw [if_neg hempty]

theorem refsOf_commitBranch {committed : EventRngHypothesisRegistry}
    (h : registry.commitBranch key state branchId = .ok committed) (other : RngKey) :
    committed.refsOf other =
      if other = key then insert branchId (registry.refsOf key) else registry.refsOf other := by
  rcases commitBranch_eq_ok h with ⟨ensured, hensured, rfl⟩
  have hsame : ensured.branchRefsByKey = registry.branchRefsByKey := by
    rcases ensureEntry_eq_ok hensured with ⟨generation, hentry, rfl⟩ | ⟨hentry, rfl⟩ <;> rfl
  unfold registerBranch refsOf
  rw [hsame, Dict.get?_set]
  by_cases hother : other = key
  · rw [if_pos hother, if_pos hother, Option.getD_some]
  · rw [if_neg hother, if_neg hother]

/-- The hypothesis of the branch that is committed is there, and the others are as they
    were. -/
theorem get?_commitBranch {committed : EventRngHypothesisRegistry}
    (h : registry.commitBranch key state branchId = .ok committed) :
    (∃ generation, committed.entries.get? key = some ⟨state, generation⟩) ∧
      ∀ other, other ≠ key ∨ (registry.entries.get? other).isSome →
        committed.entries.get? other = registry.entries.get? other := by
  rcases commitBranch_eq_ok h with ⟨ensured, hensured, rfl⟩
  rcases ensureEntry_eq_ok hensured with ⟨generation, hentry, rfl⟩ | ⟨hentry, rfl⟩
  · exact ⟨⟨generation, hentry⟩, fun _ _ => rfl⟩
  · refine ⟨⟨_, Dict.get?_set_self _ _ _⟩, fun other hother => Dict.get?_set_ne _ _ ?_⟩
    rcases hother with hother | hother
    · exact hother
    · rintro rfl
      rw [hentry] at hother
      cases hother

/-- A branch whose state is that of the hypothesis is committed. -/
theorem commitBranch_isOk (branchId : PyStr)
    (h : ∀ entry, registry.entries.get? key = some entry → entry.state = state) :
    ∃ committed, registry.commitBranch key state branchId = .ok committed := by
  unfold commitBranch ensureEntry
  cases hentry : registry.entries.get? key with
  | none => exact ⟨_, rfl⟩
  | some entry =>
      refine ⟨registry.registerBranch key branchId, ?_⟩
      dsimp only
      rw [if_neg (not_not.mpr (h entry hentry))]
      rfl

end References

end EventRngHypothesisRegistry

end WholeRun

end STS2RL
