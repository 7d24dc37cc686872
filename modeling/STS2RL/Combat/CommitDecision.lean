import STS2RL.Combat.Aggregation
import Mathlib.Algebra.BigOperators.Group.List.Basic
import Mathlib.Algebra.Order.BigOperators.Group.List

/-!
# The Decision of a Round under Hypotheses

What a round of hypothesis samples is decided on, told of the entries and not of
the tables that are built from them.

A root action is scored with the mean, over all hypotheses of the round, of its
best sample under each, or of the worst sample of the round where it has none.
These scores do not depend on the order of the entries, and neither does the
root action that leads. What does is the entry that represents it. Among samples
of one hypothesis with the same score the first one in the list is kept, and only
then the work ids are compared. So an entry can come to represent its root action
exactly when it has the best score of the action and every other hypothesis with
that score has such an entry with a smaller work id.

A root action without any sample is left out because it has too few, unless none
is required. Then the best of no samples is asked for.

## Main definitions

* `groupOf`, `sampleScore`, `meanScore`: The scores, told of the entries.
* `Excluded`, `Leads`: The root actions that do not count, and the best that does.
* `Electable`: The entries that can represent their root action.
* `decideHypotheses`, `SoundDecision`: The decision, and what it promises.
* `Covered`, `TiesAgree`: When it keeps it.

## Theorems

* `samplesOf_get?`: The sample that is kept for a hypothesis.
* `rootAggregation_eq_some`: The score of a root action is its mean.
* `representative_electable`, `electable_representative`: Who can represent.
* `decideHypotheses_cases`: What a decision comes to.
* `sound_decision_iff`: The law of the decision.
-/

namespace STS2RL

namespace Combat

/-!
### Samples

A root action keeps one sample for each hypothesis: the best, and among equal ones the
first in the list.
-/

section Samples

variable (entries : List BranchDecisionLogEntry)

/-- The samples of a root action under a hypothesis, in order. -/
def groupOf (rootActionKey hypothesis : String) : List BranchDecisionLogEntry :=
  (successEntries entries).filter fun entry =>
    entry.rootActionKey = rootActionKey ∧ entry.hypothesisId = some hypothesis

/-- The first of the best samples so far. -/
def better (current : Option BranchDecisionLogEntry) (entry : BranchDecisionLogEntry) :
    Option BranchDecisionLogEntry :=
  match current with
  | none => some entry
  | some current => if current.value < entry.value then some entry else some current

/-- A sample that is added is kept if it is better than the one there was. -/
theorem addSample_get? (samples : Dict String BranchDecisionLogEntry)
    (entry : BranchDecisionLogEntry) (hypothesis : String) :
    (addSample samples entry).get? hypothesis =
      if entry.hypothesisId = some hypothesis then better (samples.get? hypothesis) entry
      else samples.get? hypothesis := by
  unfold addSample better
  cases hentry : entry.hypothesisId with
  | none => simp
  | some own =>
      dsimp only
      by_cases hown : own = hypothesis
      · subst hown
        rw [if_pos rfl]
        cases hcurrent : samples.get? own with
        | none => simp
        | some current =>
            by_cases hbetter : current.value < entry.value
            · simp [hbetter]
            · simp [hbetter, hcurrent]
      · rw [if_neg fun heq => hown (Option.some.inj heq)]
        have hother : ∀ value : BranchDecisionLogEntry,
            (samples.set own value).get? hypothesis = samples.get? hypothesis :=
          fun value => Dict.get?_set_ne samples value (Ne.symm hown)
        split
        · exact hother entry
        · split
          · exact hother entry
          · rfl

theorem foldl_addSample_get? (valid : List BranchDecisionLogEntry) (hypothesis : String) :
    ∀ samples : Dict String BranchDecisionLogEntry,
      (valid.foldl addSample samples).get? hypothesis =
        (valid.filter (·.hypothesisId = some hypothesis)).foldl better
          (samples.get? hypothesis) := by
  induction valid with
  | nil => exact fun _ => rfl
  | cons entry rest ih =>
      intro samples
      rw [List.foldl_cons, ih, addSample_get?]
      by_cases hentry : entry.hypothesisId = some hypothesis
      · rw [if_pos hentry, List.filter_cons_of_pos (by simpa using hentry), List.foldl_cons]
      · rw [if_neg hentry, List.filter_cons_of_neg (by simpa using hentry)]

/-- The sample that is kept for a hypothesis: the first of the best. -/
theorem samplesOf_get? (rootActionKey hypothesis : String) :
    (samplesOf rootActionKey (successEntries entries)).get? hypothesis =
      (groupOf entries rootActionKey hypothesis).foldl better none := by
  unfold samplesOf
  rw [foldl_addSample_get?, List.filter_filter]
  unfold groupOf
  refine congrArg (fun group => List.foldl better none group) (List.filter_congr fun entry _ => ?_)
  by_cases hkey : entry.rootActionKey = rootActionKey
  · simp [hkey]
  · simp [hkey]

variable {entries}

/-- The best of some entries is one of them, and none is better. -/
theorem foldl_better_some (group : List BranchDecisionLogEntry) :
    ∀ current : BranchDecisionLogEntry, ∃ best, group.foldl better (some current) = some best ∧
      (best = current ∨ best ∈ group) ∧ current.value ≤ best.value ∧
      ∀ entry ∈ group, entry.value ≤ best.value := by
  induction group with
  | nil => exact fun current => ⟨current, rfl, .inl rfl, le_refl _, fun _ hmem => nomatch hmem⟩
  | cons first rest ih =>
      intro current
      rw [List.foldl_cons]
      by_cases hbetter : current.value < first.value
      · have hnext : better (some current) first = some first := if_pos hbetter
        rcases ih first with ⟨best, hbest, hmem, hle, hall⟩
        refine ⟨best, by rw [hnext]; exact hbest, .inr ?_, hbetter.le.trans hle,
          fun entry hentry => ?_⟩
        · rcases hmem with rfl | hmem
          · exact List.mem_cons_self
          · exact List.mem_cons_of_mem first hmem
        · rcases List.mem_cons.mp hentry with rfl | hentry
          · exact hle
          · exact hall entry hentry
      · have hnext : better (some current) first = some current := if_neg hbetter
        rcases ih current with ⟨best, hbest, hmem, hle, hall⟩
        refine ⟨best, by rw [hnext]; exact hbest, ?_, hle, fun entry hentry => ?_⟩
        · rcases hmem with rfl | hmem
          · exact .inl rfl
          · exact .inr (List.mem_cons_of_mem first hmem)
        · rcases List.mem_cons.mp hentry with rfl | hentry
          · exact (not_lt.mp hbetter).trans hle
          · exact hall entry hentry

/-- The first of the best samples is one of them, and none is better. -/
theorem foldl_better_eq_some {group : List BranchDecisionLogEntry} {best : BranchDecisionLogEntry}
    (h : group.foldl better none = some best) :
    best ∈ group ∧ ∀ entry ∈ group, entry.value ≤ best.value := by
  cases group with
  | nil => cases h
  | cons first rest =>
      rcases foldl_better_some rest first with ⟨found, hfound, hmem, hle, hall⟩
      have hsame : found = best := by
        rw [List.foldl_cons] at h
        exact Option.some.inj (hfound.symm.trans h)
      subst hsame
      refine ⟨?_, fun entry hentry => ?_⟩
      · rcases hmem with rfl | hmem
        · exact List.mem_cons_self
        · exact List.mem_cons_of_mem first hmem
      · rcases List.mem_cons.mp hentry with rfl | hentry
        · exact hle
        · exact hall entry hentry

theorem foldl_better_eq_none {group : List BranchDecisionLogEntry} :
    group.foldl better none = none ↔ group = [] := by
  cases group with
  | nil => simp
  | cons first rest =>
      rcases foldl_better_some rest first with ⟨best, hbest, -⟩
      rw [List.foldl_cons, show better none first = some first from rfl, hbest]
      simp

/-- A sample that nothing beats is kept. -/
theorem foldl_better_stays {group : List BranchDecisionLogEntry} {current : BranchDecisionLogEntry}
    (h : ∀ entry ∈ group, entry.value ≤ current.value) :
    group.foldl better (some current) = some current := by
  induction group with
  | nil => rfl
  | cons first rest ih =>
      have hfirst : better (some current) first = some current :=
        if_neg (not_lt.mpr (h first List.mem_cons_self))
      rw [List.foldl_cons, hfirst]
      exact ih fun entry hentry => h entry (List.mem_cons_of_mem first hentry)

theorem mem_groupOf {rootActionKey hypothesis : String} {entry : BranchDecisionLogEntry} :
    entry ∈ groupOf entries rootActionKey hypothesis ↔ entry ∈ successEntries entries ∧
      entry.rootActionKey = rootActionKey ∧ entry.hypothesisId = some hypothesis := by
  unfold groupOf
  rw [List.mem_filter, decide_eq_true_eq]

/-- The samples of a root action are the first of the best of its groups. -/
theorem mem_samples_iff {rootActionKey : String} {entry : BranchDecisionLogEntry} :
    entry ∈ (samplesOf rootActionKey (successEntries entries)).entries.map (·.2) ↔
      ∃ hypothesis, (groupOf entries rootActionKey hypothesis).foldl better none = some entry := by
  rw [List.mem_map]
  constructor
  · rintro ⟨⟨hypothesis, sample⟩, hmem, rfl⟩
    refine ⟨hypothesis, ?_⟩
    rw [← samplesOf_get?]
    exact (Dict.mem_entries_iff _ hypothesis sample).mp hmem
  · rintro ⟨hypothesis, hbest⟩
    rw [← samplesOf_get?] at hbest
    exact ⟨(hypothesis, entry), (Dict.mem_entries_iff _ hypothesis entry).mpr hbest, rfl⟩

end Samples

/-!
### Representatives

Of the samples that were kept one represents the root action: one with the best score, and
among those the one whose work id comes last.
-/

section Representative

/-- The first entry is at most the second, by score and then by work id. -/
def RankLe (a b : BranchDecisionLogEntry) : Prop :=
  a.value < b.value ∨ a.value = b.value ∧ a.workId ≤ b.workId

theorem RankLe.trans {a b c : BranchDecisionLogEntry} (hab : RankLe a b) (hbc : RankLe b c) :
    RankLe a c := by
  rcases hab with hab | ⟨hab, hid⟩
  · rcases hbc with hbc | ⟨hbc, -⟩
    · exact .inl (hab.trans hbc)
    · exact .inl (hbc ▸ hab)
  · rcases hbc with hbc | ⟨hbc, hid'⟩
    · exact .inl (hab ▸ hbc)
    · exact .inr ⟨hab.trans hbc, hid.trans hid'⟩

/-- The fold ends at an entry that ranks above all others. -/
theorem foldl_rank_le (rest : List BranchDecisionLogEntry) :
    ∀ best : BranchDecisionLogEntry, ∀ entry ∈ best :: rest, RankLe entry
      (rest.foldl (fun best other =>
        if best.value < other.value ∨ best.value = other.value ∧ best.workId < other.workId
        then other else best) best) := by
  -- The induction is on the entries, with the best one of those before them.
  induction rest with
  | nil =>
      intro best entry hentry
      rw [List.mem_singleton.mp hentry]
      exact .inr ⟨rfl, le_refl _⟩
  | cons first rest ih =>
      intro best entry hentry
      rw [List.foldl_cons]
      by_cases hbetter : best.value < first.value ∨
          best.value = first.value ∧ best.workId < first.workId
      · rw [if_pos hbetter]
        rcases List.mem_cons.mp hentry with rfl | hentry
        · refine RankLe.trans ?_ (ih first first List.mem_cons_self)
          exact hbetter.imp id fun h => ⟨h.1, h.2.le⟩
        · exact ih first entry hentry
      -- The best one stays, and the entry that was just looked at is not above it.
      · rw [if_neg hbetter]
        rcases List.mem_cons.mp hentry with rfl | hentry
        · exact ih entry entry List.mem_cons_self
        · rcases List.mem_cons.mp hentry with rfl | hentry
          · refine RankLe.trans ?_ (ih best best List.mem_cons_self)
            rw [not_or, not_lt, not_and, not_lt] at hbetter
            rcases hbetter.1.lt_or_eq with hlt | heq
            · exact .inl hlt
            · exact .inr ⟨heq, hbetter.2 heq.symm⟩
          · exact ih best entry (List.mem_cons_of_mem best hentry)

/-- A representative is a sample that none is above. -/
theorem representative_max {samples : List BranchDecisionLogEntry} {best : BranchDecisionLogEntry}
    (h : representative samples = some best) : ∀ entry ∈ samples, RankLe entry best := by
  cases samples with
  | nil => cases h
  | cons first rest =>
      rw [← Option.some.inj h]
      exact foldl_rank_le rest first

theorem representative_eq_none {samples : List BranchDecisionLogEntry} :
    representative samples = none ↔ samples = [] := by
  cases samples <;> simp [representative]

/-- A sample that is strictly above all others is the representative. -/
theorem representative_eq_some {samples : List BranchDecisionLogEntry}
    {best : BranchDecisionLogEntry} (hmem : best ∈ samples)
    (hmax : ∀ entry ∈ samples, entry ≠ best → entry.value < best.value ∨
      entry.value = best.value ∧ entry.workId < best.workId) :
    representative samples = some best := by
  cases hfound : representative samples with
  | none =>
      rw [representative_eq_none.mp hfound] at hmem
      cases hmem
  | some found =>
      by_cases hsame : found = best
      · rw [hsame]
      · exfalso
        rcases hmax found (representative_mem samples found hfound) hsame with hlt | ⟨heq, hid⟩
        · rcases representative_max hfound best hmem with hlt' | ⟨heq', -⟩
          · exact lt_asymm hlt hlt'
          · exact absurd heq' hlt.ne'
        · rcases representative_max hfound best hmem with hlt' | ⟨-, hid'⟩
          · exact absurd heq hlt'.ne'
          · exact absurd hid (not_lt.mpr hid')

end Representative

/-!
### Scores

The score of a root action under a hypothesis, and its mean.
-/

section Scores

variable (entries : List BranchDecisionLogEntry)

/-- The score of a root action under a hypothesis: its best sample, or the worst
    of the round. -/
def sampleScore (rootActionKey hypothesis : String) : ℚ :=
  match (groupOf entries rootActionKey hypothesis).foldl better none with
  | some best => best.value
  | none => worstScore (successEntries entries)

/-- The mean over all hypotheses of the round. -/
def meanScore (rootActionKey : String) : ℚ :=
  ((allHypotheses entries).map (sampleScore entries rootActionKey)).sum /
    (allHypotheses entries).length

variable {entries}

theorem sampleScore_of_some {rootActionKey hypothesis : String} {best : BranchDecisionLogEntry}
    (h : (groupOf entries rootActionKey hypothesis).foldl better none = some best) :
    sampleScore entries rootActionKey hypothesis = best.value := by
  unfold sampleScore
  rw [h]

theorem sampleScore_of_none {rootActionKey hypothesis : String}
    (h : (groupOf entries rootActionKey hypothesis).foldl better none = none) :
    sampleScore entries rootActionKey hypothesis = worstScore (successEntries entries) := by
  unfold sampleScore
  rw [h]

theorem foldl_min_le (rest : List BranchDecisionLogEntry) :
    ∀ worst : ℚ, rest.foldl (fun worst other => min worst other.value) worst ≤ worst ∧
      ∀ entry ∈ rest, rest.foldl (fun worst other => min worst other.value) worst ≤
        entry.value := by
  induction rest with
  | nil => exact fun worst => ⟨le_refl _, fun _ hmem => nomatch hmem⟩
  | cons first rest ih =>
      intro worst
      rw [List.foldl_cons]
      rcases ih (min worst first.value) with ⟨hle, hall⟩
      refine ⟨hle.trans (min_le_left _ _), fun entry hentry => ?_⟩
      rcases List.mem_cons.mp hentry with rfl | hentry
      · exact hle.trans (min_le_right _ _)
      · exact hall entry hentry

theorem foldl_min_mem (rest : List BranchDecisionLogEntry) :
    ∀ worst : ℚ, rest.foldl (fun worst other => min worst other.value) worst = worst ∨
      ∃ entry ∈ rest, rest.foldl (fun worst other => min worst other.value) worst =
        entry.value := by
  induction rest with
  | nil => exact fun worst => .inl rfl
  | cons first rest ih =>
      intro worst
      rw [List.foldl_cons]
      rcases ih (min worst first.value) with hsame | ⟨entry, hentry, hsame⟩
      · rcases le_total worst first.value with hle | hle
        · exact .inl (hsame.trans (min_eq_left hle))
        · exact .inr ⟨first, List.mem_cons_self, hsame.trans (min_eq_right hle)⟩
      · exact .inr ⟨entry, List.mem_cons_of_mem first hentry, hsame⟩

theorem worstScore_le {valid : List BranchDecisionLogEntry} :
    ∀ entry ∈ valid, worstScore valid ≤ entry.value := by
  cases valid with
  | nil => exact fun _ hmem => nomatch hmem
  | cons first rest =>
      rcases foldl_min_le rest first.value with ⟨hle, hall⟩
      intro entry hentry
      rcases List.mem_cons.mp hentry with rfl | hentry
      · exact hle
      · exact hall entry hentry

theorem worstScore_mem {valid : List BranchDecisionLogEntry} (h : valid ≠ []) :
    ∃ entry ∈ valid, worstScore valid = entry.value := by
  cases valid with
  | nil => exact absurd rfl h
  | cons first rest =>
      rcases foldl_min_mem rest first.value with hsame | ⟨entry, hentry, hsame⟩
      · exact ⟨first, List.mem_cons_self, hsame⟩
      · exact ⟨entry, List.mem_cons_of_mem first hentry, hsame⟩

/-- No score of a round is below the worst of it. -/
theorem worstScore_le_sampleScore (rootActionKey hypothesis : String) :
    worstScore (successEntries entries) ≤ sampleScore entries rootActionKey hypothesis := by
  cases hbest : (groupOf entries rootActionKey hypothesis).foldl better none with
  | none => rw [sampleScore_of_none hbest]
  | some best =>
      rw [sampleScore_of_some hbest]
      exact worstScore_le best (mem_groupOf.mp (foldl_better_eq_some hbest).1).1

/-- The keys of the samples are the hypotheses the root action succeeded under. -/
theorem mem_keys_samplesOf {rootActionKey hypothesis : String} :
    hypothesis ∈ (samplesOf rootActionKey (successEntries entries)).keys ↔
      groupOf entries rootActionKey hypothesis ≠ [] := by
  rw [Dict.mem_keys_iff, samplesOf_get?, Ne, ← foldl_better_eq_none, ← ne_eq,
    Option.ne_none_iff_exists']

theorem mem_allHypotheses {hypothesis : String} :
    hypothesis ∈ allHypotheses entries ↔
      ∃ entry ∈ entries, entry.hypothesisId = some hypothesis := by
  rw [allHypotheses, List.mem_dedup, List.mem_filterMap]

theorem mem_allHypotheses_of_mem_keys {rootActionKey hypothesis : String}
    (h : hypothesis ∈ (samplesOf rootActionKey (successEntries entries)).keys) :
    hypothesis ∈ allHypotheses entries := by
  rcases List.exists_mem_of_ne_nil _ (mem_keys_samplesOf.mp h) with ⟨entry, hentry⟩
  rcases mem_groupOf.mp hentry with ⟨hvalid, -, hhypothesis⟩
  exact mem_allHypotheses.mpr ⟨entry, (List.mem_filter.mp hvalid).1, hhypothesis⟩

/-- The sum over the samples, and the worst score for each missing one, is the
    sum over all hypotheses. -/
theorem sum_samples_eq (rootActionKey : String) :
    ((((samplesOf rootActionKey (successEntries entries)).entries.map (·.2)).map (·.value)).sum +
      ((allHypotheses entries).length -
        ((samplesOf rootActionKey (successEntries entries)).entries.map (·.2)).length : Nat) *
        worstScore (successEntries entries)) =
      ((allHypotheses entries).map (sampleScore entries rootActionKey)).sum := by
  -- The hypotheses with a sample, each once.
  have hperm : ((allHypotheses entries).filter
      (· ∈ (samplesOf rootActionKey (successEntries entries)).keys)).Perm
      (samplesOf rootActionKey (successEntries entries)).keys := by
    refine (List.perm_ext_iff_of_nodup ((List.nodup_dedup _).filter _) (Dict.nodup _)).mpr
      fun hypothesis => ?_
    rw [List.mem_filter, decide_eq_true_eq]
    exact and_iff_right_iff_imp.mpr mem_allHypotheses_of_mem_keys
  -- The hypotheses are split into those with a sample and those without.
  rw [← List.sum_map_filter_add_sum_map_filter_not
    (· ∈ (samplesOf rootActionKey (successEntries entries)).keys) _ (allHypotheses entries)]
  congr 1
  · -- The hypotheses with a sample.
    rw [(hperm.map _).sum_eq, Dict.keys, List.map_map, List.map_map]
    refine congrArg List.sum (List.map_congr_left fun sample hsample => ?_)
    have hget := (Dict.mem_entries_iff _ sample.1 sample.2).mp hsample
    rw [samplesOf_get?] at hget
    exact (sampleScore_of_some hget).symm
  · -- The hypotheses without.
    have hworst : ∀ hypothesis ∈ (allHypotheses entries).filter
        (¬ · ∈ (samplesOf rootActionKey (successEntries entries)).keys),
        sampleScore entries rootActionKey hypothesis = worstScore (successEntries entries) := by
      intro hypothesis hmem
      rw [List.mem_filter, decide_eq_true_eq, mem_keys_samplesOf, not_not,
        ← foldl_better_eq_none] at hmem
      exact sampleScore_of_none hmem.2
    rw [List.map_congr_left hworst, List.map_const', List.sum_replicate, nsmul_eq_mul]
    -- How many are without one is what the samples lack.
    congr 2
    have hlength := (List.filter_append_perm
      (· ∈ (samplesOf rootActionKey (successEntries entries)).keys)
        (allHypotheses entries)).length_eq
    have hkeys : (samplesOf rootActionKey (successEntries entries)).keys.length =
        (samplesOf rootActionKey (successEntries entries)).entries.length := List.length_map _
    rw [List.length_append, hperm.length_eq, hkeys] at hlength
    rw [List.length_map]
    simp only [decide_not]
    omega

end Scores

/-!
### A round

What a round aggregates to, root action by root action, and which of them leads.
-/

section Round

variable (minCoverageFraction : ℚ) (entries : List BranchDecisionLogEntry)

/-- What is aggregated of a root action in this round. -/
def rootAggregation (rootActionKey : String) : Except PyException (Option RootActionAggregation) :=
  aggregateRoot (allHypotheses entries).length
    (requiredSamples (allHypotheses entries).length minCoverageFraction)
    (worstScore (successEntries entries)) rootActionKey
    ((samplesOf rootActionKey (successEntries entries)).entries.map (·.2))

/-- The root action has too few samples. -/
def Excluded (rootActionKey : String) : Prop :=
  (((samplesOf rootActionKey (successEntries entries)).entries.map (·.2)).length : Int) <
    requiredSamples (allHypotheses entries).length minCoverageFraction

/-- Where no sample is required of a root action, each has one all the same. -/
def Covered : Prop :=
  minCoverageFraction = 0 → allHypotheses entries = [] ∨ successEntries entries = [] ∨
    ∀ rootActionKey ∈ allRoots entries, sampleCount rootActionKey entries ≠ 0

/-- No root action that counts has a better mean, or the same and a smaller key. -/
structure Leads (rootActionKey : String) : Prop where
  root : rootActionKey ∈ allRoots entries
  viable : ¬ Excluded minCoverageFraction entries rootActionKey
  best : ∀ other ∈ allRoots entries, ¬ Excluded minCoverageFraction entries other →
    meanScore entries other < meanScore entries rootActionKey ∨
      meanScore entries other = meanScore entries rootActionKey ∧ rootActionKey ≤ other

variable {minCoverageFraction} {entries}

theorem Leads.unique {rootActionKey other : String}
    (h : Leads minCoverageFraction entries rootActionKey)
    (h' : Leads minCoverageFraction entries other) : rootActionKey = other := by
  rcases h.best other h'.root h'.viable with hlt | ⟨heq, hle⟩
  · rcases h'.best rootActionKey h.root h.viable with hlt' | ⟨heq', -⟩
    · exact absurd hlt' (lt_asymm hlt)
    · exact absurd heq' hlt.ne'
  · rcases h'.best rootActionKey h.root h.viable with hlt' | ⟨-, hle'⟩
    · exact absurd heq hlt'.ne'
    · exact le_antisymm hle hle'

theorem rootAggregation_of_excluded {rootActionKey : String}
    (h : Excluded minCoverageFraction entries rootActionKey) :
    rootAggregation minCoverageFraction entries rootActionKey = .ok none := by
  unfold rootAggregation aggregateRoot
  exact if_pos h

/-- A root action that counts has a representative sample, or `max` raises. -/
theorem rootAggregation_of_counts {rootActionKey : String}
    (h : ¬ Excluded minCoverageFraction entries rootActionKey) :
    (representative ((samplesOf rootActionKey (successEntries entries)).entries.map (·.2)) = none ∧
      rootAggregation minCoverageFraction entries rootActionKey =
        .error (.valueError "max() arg is an empty sequence")) ∨
    ∃ action, rootAggregation minCoverageFraction entries rootActionKey = .ok (some action) ∧
      action.rootActionKey = rootActionKey ∧
      representative ((samplesOf rootActionKey (successEntries entries)).entries.map (·.2)) =
        some action.representativeEntry ∧
      action.aggregateScore = meanScore entries rootActionKey := by
  unfold Excluded at h
  unfold rootAggregation aggregateRoot
  rw [if_neg h]
  cases hbest : representative
      ((samplesOf rootActionKey (successEntries entries)).entries.map (·.2)) with
  | none => exact .inl ⟨rfl, rfl⟩
  | some best =>
      refine .inr ⟨_, rfl, rfl, rfl, ?_⟩
      rw [meanScore, ← sum_samples_eq]

/-- The score of a root action is its mean over the hypotheses. -/
theorem rootAggregation_eq_some {rootActionKey : String} {action : RootActionAggregation}
    (h : rootAggregation minCoverageFraction entries rootActionKey = .ok (some action)) :
    ¬ Excluded minCoverageFraction entries rootActionKey ∧
      action.rootActionKey = rootActionKey ∧
      representative ((samplesOf rootActionKey (successEntries entries)).entries.map (·.2)) =
        some action.representativeEntry ∧
      action.aggregateScore = meanScore entries rootActionKey := by
  by_cases hfew : Excluded minCoverageFraction entries rootActionKey
  · rw [rootAggregation_of_excluded hfew] at h
    cases h
  · refine ⟨hfew, ?_⟩
    rcases rootAggregation_of_counts hfew with ⟨-, hraises⟩ | ⟨found, hfound, hspec⟩
    · rw [hraises] at h
      cases h
    · rw [hfound] at h
      cases h
      exact hspec

/-- A root action is aggregated unless it counts without a sample. -/
theorem rootAggregation_isOk {rootActionKey : String} :
    (∃ found, rootAggregation minCoverageFraction entries rootActionKey = .ok found) ↔
      Excluded minCoverageFraction entries rootActionKey ∨
        sampleCount rootActionKey entries ≠ 0 := by
  rw [← samplesOf_length, Ne, List.length_eq_zero_iff, ← representative_eq_none]
  by_cases hfew : Excluded minCoverageFraction entries rootActionKey
  · rw [rootAggregation_of_excluded hfew]
    exact ⟨fun _ => .inl hfew, fun _ => ⟨none, rfl⟩⟩
  · rw [or_iff_right hfew]
    rcases rootAggregation_of_counts hfew with ⟨hnone, hraises⟩ | ⟨found, hfound, -, hsome, -⟩
    · rw [hraises, hnone]
      simp
    · rw [hfound, hsome]
      simp

/-- Something is required exactly where the fraction is not nought: the product of
    two floats does not vanish where one is a whole number. -/
theorem requiredSamples_pos_iff {total : Nat} (htotal : total ≠ 0) {minCoverageFraction : ℚ}
    (hnonneg : 0 ≤ minCoverageFraction)
    (hdouble : PyNumber.nearestDouble minCoverageFraction = minCoverageFraction) :
    0 < requiredSamples total minCoverageFraction ↔ minCoverageFraction ≠ 0 := by
  rw [requiredSamples, Int.ceil_pos]
  constructor
  · rintro hpos rfl
    rw [mul_zero] at hpos
    exact lt_irrefl _ (lt_of_lt_of_eq hpos (if_pos rfl))
  · intro hne
    have hone : (1 : ℚ) ≤ PyNumber.nearestDouble total := by
      have hunit : PyNumber.pow2 0 = 1 := by simp [PyNumber.pow2]
      have htotal' : PyNumber.pow2 0 ≤ total := by
        rw [hunit]
        exact_mod_cast Nat.one_le_iff_ne_zero.mpr htotal
      exact hunit ▸ PyNumber.pow2_le_nearestDouble (by decide) htotal'
    have hleast : PyNumber.pow2 (-1074) ≤ minCoverageFraction :=
      PyNumber.pow2_le_of_double (lt_of_le_of_ne hnonneg (Ne.symm hne)) hdouble
    calc (0 : ℚ) < PyNumber.pow2 (-1074) := PyNumber.pow2_pos _
      _ ≤ _ := PyNumber.pow2_le_nearestDouble le_rfl
          (hleast.trans (le_mul_of_one_le_left hnonneg hone))

/-- The round as it is aggregated, once something can be. -/
theorem aggregateHypothesisResults_eq
    (hfraction : 0 ≤ minCoverageFraction ∧ minCoverageFraction ≤ 1)
    (hfinal : ∀ entry ∈ entries, entry.workItemState.isFinal = true) :
    aggregateHypothesisResults minCoverageFraction entries =
      if allHypotheses entries = [] ∨ successEntries entries = [] then .ok ⟨[]⟩
      else (allRoots entries).mapM (rootAggregation minCoverageFraction entries) >>= fun viable =>
        .ok ⟨(viable.filterMap id).mergeSort rootLe⟩ := by
  unfold aggregateHypothesisResults requireFinalEntries
  rw [if_neg (not_not.mpr hfraction), if_pos (List.all_eq_true.mpr hfinal)]
  change (if _ then _ else _) = _
  by_cases hempty : allHypotheses entries = [] ∨ successEntries entries = []
  · rw [if_pos hempty, if_pos (hempty.imp_left List.length_eq_zero_iff.mpr)]
    rfl
  · rw [if_neg hempty, if_neg fun h => hempty (h.imp_left List.length_eq_zero_iff.mp)]
    rfl

/-- A round is aggregated exactly when it is covered. -/
theorem aggregateHypothesisResults_isOk
    (hfraction : 0 ≤ minCoverageFraction ∧ minCoverageFraction ≤ 1)
    (hdouble : PyNumber.nearestDouble minCoverageFraction = minCoverageFraction)
    (hfinal : ∀ entry ∈ entries, entry.workItemState.isFinal = true) :
    (∃ aggregation, aggregateHypothesisResults minCoverageFraction entries = .ok aggregation) ↔
      Covered minCoverageFraction entries := by
  rw [aggregateHypothesisResults_eq hfraction hfinal]
  by_cases hempty : allHypotheses entries = [] ∨ successEntries entries = []
  · rw [if_pos hempty]
    refine ⟨fun _ _ => ?_, fun _ => ⟨_, rfl⟩⟩
    exact or_assoc.mp (.inl hempty)
  · rw [if_neg hempty]
    have htotal : (allHypotheses entries).length ≠ 0 :=
      fun h => hempty (.inl (List.length_eq_zero_iff.mp h))
    -- Every root action has to be aggregated.
    have hall : (∃ aggregation, ((allRoots entries).mapM
          (rootAggregation minCoverageFraction entries) >>= fun viable =>
            (.ok ⟨(viable.filterMap id).mergeSort rootLe⟩ : Except PyException AggregationResult)) =
          .ok aggregation) ↔
        ∀ root ∈ allRoots entries, ∃ found,
          rootAggregation minCoverageFraction entries root = .ok found := by
      constructor
      · rintro ⟨aggregation, h⟩ root hroot
        rcases (Except.bind_eq_ok _ _ _).mp h with ⟨viable, hviable, -⟩
        rcases Except.ok_of_mem_mapM _ _ _ hviable root hroot with ⟨found, -, hfound⟩
        exact ⟨found, hfound⟩
      · intro h
        rcases Except.mapM_isOk _ _ h with ⟨viable, hviable⟩
        rw [hviable]
        exact ⟨_, rfl⟩
    rw [hall]
    constructor
    · intro h hzero
      refine .inr (.inr fun root hroot => ?_)
      refine (rootAggregation_isOk.mp (h root hroot)).resolve_left fun hexcluded => ?_
      -- Nothing is required, so nothing is left out.
      have hpos : 0 < requiredSamples (allHypotheses entries).length minCoverageFraction :=
        lt_of_le_of_lt (Int.natCast_nonneg _) hexcluded
      exact (requiredSamples_pos_iff htotal hfraction.1 hdouble).mp hpos hzero
    · intro h root hroot
      refine rootAggregation_isOk.mpr ?_
      by_cases hzero : minCoverageFraction = 0
      · have hcovered := or_assoc.mpr (h hzero)
        exact .inr (hcovered.resolve_left hempty root hroot)
      · have hpos := (requiredSamples_pos_iff htotal hfraction.1 hdouble).mpr hzero
        by_cases hnone : sampleCount root entries = 0
        · refine .inl ?_
          unfold Excluded
          rw [samplesOf_length, hnone]
          exact hpos
        · exact .inr hnone

theorem rootLe_trans (a b c : RootActionAggregation) (hab : rootLe a b = true)
    (hbc : rootLe b c = true) : rootLe a c = true := by
  unfold rootLe at *
  rw [decide_eq_true_eq] at *
  rcases hab with hab | ⟨hab, hkey⟩
  · rcases hbc with hbc | ⟨hbc, -⟩
    · exact .inl (hbc.trans hab)
    · exact .inl (hbc ▸ hab)
  · rcases hbc with hbc | ⟨hbc, hkey'⟩
    · exact .inl (hab ▸ hbc)
    · exact .inr ⟨hab.trans hbc, hkey.trans hkey'⟩

theorem rootLe_total (a b : RootActionAggregation) : (rootLe a b || rootLe b a) = true := by
  unfold rootLe
  rw [Bool.or_eq_true, decide_eq_true_eq, decide_eq_true_eq]
  rcases lt_trichotomy a.aggregateScore b.aggregateScore with hlt | heq | hgt
  · exact .inr (.inl hlt)
  · rcases le_total a.rootActionKey b.rootActionKey with hkey | hkey
    · exact .inl (.inr ⟨heq, hkey⟩)
    · exact .inr (.inr ⟨heq.symm, hkey⟩)
  · exact .inl (.inl hgt)

/-- The viable actions of a round are the root actions it aggregated, best first. -/
theorem aggregateHypothesisResults_eq_ok {aggregation : AggregationResult}
    (hfraction : 0 ≤ minCoverageFraction ∧ minCoverageFraction ≤ 1)
    (hfinal : ∀ entry ∈ entries, entry.workItemState.isFinal = true)
    (h : aggregateHypothesisResults minCoverageFraction entries = .ok aggregation) :
    (allHypotheses entries = [] ∨ successEntries entries = []) ∧ aggregation.viableActions = [] ∨
    ¬ (allHypotheses entries = [] ∨ successEntries entries = []) ∧
      aggregation.viableActions.Pairwise (rootLe · ·) ∧
      ∀ action, action ∈ aggregation.viableActions ↔ ∃ root ∈ allRoots entries,
        rootAggregation minCoverageFraction entries root = .ok (some action) := by
  rw [aggregateHypothesisResults_eq hfraction hfinal] at h
  by_cases hempty : allHypotheses entries = [] ∨ successEntries entries = []
  · rw [if_pos hempty] at h
    cases h
    exact .inl ⟨hempty, rfl⟩
  · rw [if_neg hempty, Except.bind_eq_ok] at h
    rcases h with ⟨viable, hviable, h⟩
    cases h
    refine .inr ⟨hempty, List.pairwise_mergeSort rootLe_trans rootLe_total _, fun action => ?_⟩
    rw [List.mem_mergeSort, List.mem_filterMap]
    constructor
    · rintro ⟨found, hfound, hid⟩
      rcases Except.exists_of_mem_mapM _ _ _ hviable found hfound with ⟨root, hroot, hok⟩
      rw [id] at hid
      exact ⟨root, hroot, hid ▸ hok⟩
    · rintro ⟨root, hroot, hok⟩
      rcases Except.ok_of_mem_mapM _ _ _ hviable root hroot with ⟨found, hfound, hok'⟩
      rw [hok] at hok'
      exact ⟨some action, Except.ok.inj hok' ▸ hfound, rfl⟩

/-- A root action that counts is viable in a round that was aggregated. -/
theorem exists_viableAction {aggregation : AggregationResult} {rootActionKey : String}
    (hfraction : 0 ≤ minCoverageFraction ∧ minCoverageFraction ≤ 1)
    (hfinal : ∀ entry ∈ entries, entry.workItemState.isFinal = true)
    (h : aggregateHypothesisResults minCoverageFraction entries = .ok aggregation)
    (hempty : ¬ (allHypotheses entries = [] ∨ successEntries entries = []))
    (hroot : rootActionKey ∈ allRoots entries)
    (hcounts : ¬ Excluded minCoverageFraction entries rootActionKey) :
    ∃ action ∈ aggregation.viableActions, action.rootActionKey = rootActionKey ∧
      action.aggregateScore = meanScore entries rootActionKey := by
  have hspec := aggregateHypothesisResults_eq_ok hfraction hfinal h
  rcases hspec.resolve_left fun hnone => hempty hnone.1 with ⟨-, -, hmem⟩
  -- Something was aggregated of it, since the round was.
  rcases rootAggregation_of_counts hcounts with ⟨-, hraises⟩ | ⟨action, hok, hkey, -, hscore⟩
  · exfalso
    rw [aggregateHypothesisResults_eq hfraction hfinal, if_neg hempty, Except.bind_eq_ok] at h
    rcases h with ⟨viable, hviable, -⟩
    rcases Except.ok_of_mem_mapM _ _ _ hviable rootActionKey hroot with ⟨found, -, hfound⟩
    rw [hraises] at hfound
    cases hfound
  · exact ⟨action, (hmem action).mpr ⟨rootActionKey, hroot, hok⟩, hkey, hscore⟩

/-- The best action of a round is the root action that leads. -/
theorem bestAction_leads {aggregation : AggregationResult} {action : RootActionAggregation}
    (hfraction : 0 ≤ minCoverageFraction ∧ minCoverageFraction ≤ 1)
    (hfinal : ∀ entry ∈ entries, entry.workItemState.isFinal = true)
    (h : aggregateHypothesisResults minCoverageFraction entries = .ok aggregation)
    (hbest : aggregation.bestAction = some action) :
    Leads minCoverageFraction entries action.rootActionKey ∧
      representative ((samplesOf action.rootActionKey (successEntries entries)).entries.map (·.2)) =
        some action.representativeEntry := by
  rcases List.head?_eq_some_iff.mp hbest with ⟨rest, hactions⟩
  have hne : aggregation.viableActions ≠ [] := hactions ▸ List.cons_ne_nil action rest
  rcases (aggregateHypothesisResults_eq_ok hfraction hfinal h).resolve_left fun hnone =>
    hne hnone.2 with ⟨hempty, hsorted, hmem⟩
  rcases (hmem action).mp (hactions ▸ List.mem_cons_self) with ⟨root, hroot, hok⟩
  rcases rootAggregation_eq_some hok with ⟨hviable, hkey, hrepresentative, hscore⟩
  subst hkey
  refine ⟨⟨hroot, hviable, fun other hother hcounts => ?_⟩, hrepresentative⟩
  -- The other root action is viable too, and it is not before the head.
  rcases exists_viableAction hfraction hfinal h hempty hother hcounts with
    ⟨rival, hrival, rfl, hscore'⟩
  rw [← hscore, ← hscore']
  rw [hactions] at hrival hsorted
  rcases List.mem_cons.mp hrival with rfl | hrest
  · exact .inr ⟨rfl, le_refl _⟩
  · have hle := (List.pairwise_cons.mp hsorted).1 rival hrest
    rw [rootLe, decide_eq_true_eq] at hle
    exact hle.imp_right fun h => ⟨h.1.symm, h.2⟩

end Round

/-!
### Other orders

Nothing of the scores depends on the order of the entries.
-/

section Order

variable {entries reordered : List BranchDecisionLogEntry}

theorem successEntries_perm (h : reordered.Perm entries) :
    (successEntries reordered).Perm (successEntries entries) :=
  h.filter _

theorem groupOf_perm (h : reordered.Perm entries) (rootActionKey hypothesis : String) :
    (groupOf reordered rootActionKey hypothesis).Perm
      (groupOf entries rootActionKey hypothesis) :=
  (successEntries_perm h).filter _

theorem allHypotheses_perm (h : reordered.Perm entries) :
    (allHypotheses reordered).Perm (allHypotheses entries) :=
  (h.filterMap _).dedup

theorem mem_allRoots_perm (h : reordered.Perm entries) (rootActionKey : String) :
    rootActionKey ∈ allRoots reordered ↔ rootActionKey ∈ allRoots entries := by
  rw [allRoots, allRoots, List.mem_mergeSort, List.mem_mergeSort, List.mem_dedup, List.mem_dedup]
  exact (h.map _).mem_iff

theorem sampleCount_perm (h : reordered.Perm entries) (rootActionKey : String) :
    sampleCount rootActionKey reordered = sampleCount rootActionKey entries :=
  ((((successEntries_perm h).filter _).filterMap _).dedup).length_eq

theorem worstScore_perm {valid valid' : List BranchDecisionLogEntry} (h : valid'.Perm valid) :
    worstScore valid' = worstScore valid := by
  by_cases hnil : valid = []
  · subst hnil
    rw [List.perm_nil.mp h]
  · have hnil' : valid' ≠ [] := fun heq => hnil (List.perm_nil.mp (heq ▸ h.symm))
    rcases worstScore_mem hnil with ⟨entry, hentry, hworst⟩
    rcases worstScore_mem hnil' with ⟨entry', hentry', hworst'⟩
    apply le_antisymm
    · rw [hworst]
      exact worstScore_le entry (h.mem_iff.mpr hentry)
    · rw [hworst']
      exact worstScore_le entry' (h.mem_iff.mp hentry')

/-- The best score does not depend on which entry is found first. -/
theorem sampleScore_perm (h : reordered.Perm entries) (rootActionKey hypothesis : String) :
    sampleScore reordered rootActionKey hypothesis =
      sampleScore entries rootActionKey hypothesis := by
  have hgroup := groupOf_perm h rootActionKey hypothesis
  cases hbest : (groupOf entries rootActionKey hypothesis).foldl better none with
  | none =>
      have hnone : (groupOf reordered rootActionKey hypothesis).foldl better none = none := by
        rw [foldl_better_eq_none] at hbest ⊢
        rw [hbest] at hgroup
        exact List.perm_nil.mp hgroup
      rw [sampleScore_of_none hbest, sampleScore_of_none hnone,
        worstScore_perm (successEntries_perm h)]
  | some best =>
      have hsome : (groupOf reordered rootActionKey hypothesis).foldl better none ≠ none := by
        intro hnone
        rw [foldl_better_eq_none] at hnone
        rw [hnone] at hgroup
        rw [List.nil_perm.mp hgroup] at hbest
        cases hbest
      rcases Option.ne_none_iff_exists'.mp hsome with ⟨best', hbest'⟩
      rw [sampleScore_of_some hbest, sampleScore_of_some hbest']
      rcases foldl_better_eq_some hbest with ⟨hmem, hmax⟩
      rcases foldl_better_eq_some hbest' with ⟨hmem', hmax'⟩
      exact le_antisymm (hmax best' (hgroup.mem_iff.mp hmem'))
        (hmax' best (hgroup.mem_iff.mpr hmem))

theorem meanScore_perm (h : reordered.Perm entries) (rootActionKey : String) :
    meanScore reordered rootActionKey = meanScore entries rootActionKey := by
  have hhypotheses := allHypotheses_perm h
  unfold meanScore
  rw [hhypotheses.length_eq, (hhypotheses.map _).sum_eq,
    List.map_congr_left fun hypothesis _ => sampleScore_perm h rootActionKey hypothesis]

theorem excluded_perm (h : reordered.Perm entries) {minCoverageFraction : ℚ}
    (rootActionKey : String) :
    Excluded minCoverageFraction reordered rootActionKey ↔
      Excluded minCoverageFraction entries rootActionKey := by
  unfold Excluded
  rw [samplesOf_length, samplesOf_length, sampleCount_perm h, (allHypotheses_perm h).length_eq]

/-- Which root action leads does not depend on the order of the entries. -/
theorem Leads.perm (h : reordered.Perm entries) {minCoverageFraction : ℚ} {rootActionKey : String}
    (hleads : Leads minCoverageFraction reordered rootActionKey) :
    Leads minCoverageFraction entries rootActionKey where
  root := (mem_allRoots_perm h rootActionKey).mp hleads.root
  viable hexcluded := hleads.viable ((excluded_perm h rootActionKey).mpr hexcluded)
  best other hother hcounts := by
    rw [← meanScore_perm h, ← meanScore_perm h]
    exact hleads.best other ((mem_allRoots_perm h other).mpr hother)
      fun hexcluded => hcounts ((excluded_perm h other).mp hexcluded)

theorem Covered.perm (h : reordered.Perm entries) {minCoverageFraction : ℚ}
    (hcovered : Covered minCoverageFraction entries) : Covered minCoverageFraction reordered := by
  intro hzero
  rcases hcovered hzero with hnone | hnone | hall
  · refine .inl (List.perm_nil.mp ?_)
    rw [← hnone]
    exact allHypotheses_perm h
  · refine .inr (.inl (List.perm_nil.mp ?_))
    rw [← hnone]
    exact successEntries_perm h
  · refine .inr (.inr fun root hroot => ?_)
    rw [sampleCount_perm h]
    exact hall root ((mem_allRoots_perm h root).mp hroot)

end Order

/-!
### Who can represent

An entry that is brought forward is kept among equal samples, so the order decides between
the entries that are electable and between no others.
-/

section Election

variable (entries : List BranchDecisionLogEntry)

/-- A sample with the best score of its root action. -/
structure Top (entry : BranchDecisionLogEntry) : Prop where
  mem : entry ∈ successEntries entries
  sampled : entry.hypothesisId.isSome
  best : ∀ other ∈ successEntries entries, other.rootActionKey = entry.rootActionKey →
    other.hypothesisId.isSome → other.value ≤ entry.value

/-- Every other hypothesis with the best score has it from an entry with a smaller
    work id. -/
structure Electable (entry : BranchDecisionLogEntry) : Prop extends Top entries entry where
  above : ∀ other, Top entries other → other.rootActionKey = entry.rootActionKey →
    other.hypothesisId ≠ entry.hypothesisId →
      ∃ rival, Top entries rival ∧ rival.rootActionKey = entry.rootActionKey ∧
        rival.hypothesisId = other.hypothesisId ∧ rival.workId < entry.workId

variable {entries} {reordered : List BranchDecisionLogEntry}

theorem Top.perm (h : reordered.Perm entries) {entry : BranchDecisionLogEntry}
    (htop : Top reordered entry) : Top entries entry where
  mem := (successEntries_perm h).mem_iff.mp htop.mem
  sampled := htop.sampled
  best other hother := htop.best other ((successEntries_perm h).mem_iff.mpr hother)

theorem Electable.perm (h : reordered.Perm entries) {entry : BranchDecisionLogEntry}
    (helectable : Electable reordered entry) : Electable entries entry where
  toTop := helectable.toTop.perm h
  above other hother hroot hhypothesis := by
    rcases helectable.above other (hother.perm h.symm) hroot hhypothesis with ⟨rival, htop, hrival⟩
    exact ⟨rival, htop.perm h, hrival⟩

/-- Two best samples of a root action score the same. -/
theorem Top.value_eq {entry other : BranchDecisionLogEntry} (h : Top entries entry)
    (h' : Top entries other) (hroot : other.rootActionKey = entry.rootActionKey) :
    other.value = entry.value :=
  le_antisymm (h.best other h'.mem hroot h'.sampled)
    (h'.best entry h.mem hroot.symm h.sampled)

/-- Who represents a root action had the best score, and the greatest work id of
    those that were kept. -/
theorem representative_electable (hids : (entries.map (·.workId)).Nodup) {rootActionKey : String}
    {best : BranchDecisionLogEntry}
    (h : representative ((samplesOf rootActionKey (successEntries entries)).entries.map (·.2)) =
      some best) : Electable entries best ∧ best.rootActionKey = rootActionKey := by
  have hmax := representative_max h
  rcases mem_samples_iff.mp (representative_mem _ best h) with ⟨hypothesis, hkept⟩
  rcases mem_groupOf.mp (foldl_better_eq_some hkept).1 with ⟨hvalid, rfl, hhypothesis⟩
  -- Whatever is kept under a hypothesis is below the representative.
  have hbelow : ∀ other ∈ successEntries entries, other.rootActionKey = best.rootActionKey →
      ∀ own, other.hypothesisId = some own →
        ∃ kept, (groupOf entries best.rootActionKey own).foldl better none = some kept ∧
          other.value ≤ kept.value ∧ RankLe kept best := by
    intro other hother hroot own hown
    have hmem : other ∈ groupOf entries best.rootActionKey own :=
      mem_groupOf.mpr ⟨hother, hroot, hown⟩
    cases hfound : (groupOf entries best.rootActionKey own).foldl better none with
    | none =>
        rw [foldl_better_eq_none.mp hfound] at hmem
        cases hmem
    | some kept =>
        exact ⟨kept, rfl, (foldl_better_eq_some hfound).2 other hmem,
          hmax kept (mem_samples_iff.mpr ⟨own, hfound⟩)⟩
  have hvalue : ∀ {kept : BranchDecisionLogEntry}, RankLe kept best → kept.value ≤ best.value :=
    fun hle => hle.elim le_of_lt fun h => h.1.le
  have htop : Top entries best := by
    refine ⟨hvalid, hhypothesis ▸ rfl, fun other hother hroot hsampled => ?_⟩
    rcases Option.isSome_iff_exists.mp hsampled with ⟨own, hown⟩
    rcases hbelow other hother hroot own hown with ⟨kept, -, hle, hrank⟩
    exact hle.trans (hvalue hrank)
  refine ⟨⟨htop, fun other hother hroot hdiffers => ?_⟩, rfl⟩
  rcases Option.isSome_iff_exists.mp hother.sampled with ⟨own, hown⟩
  rcases hbelow other hother.mem hroot own hown with ⟨kept, hfound, hle, hrank⟩
  rcases mem_groupOf.mp (foldl_better_eq_some hfound).1 with ⟨hkept', hroot', hown'⟩
  have hsame : kept.value = best.value :=
    le_antisymm (hvalue hrank) ((hother.value_eq htop hroot.symm).le.trans hle)
  refine ⟨kept, ⟨hkept', hown' ▸ rfl, fun rival hrival hkey hsampled => ?_⟩, hroot',
    hown'.trans hown.symm, ?_⟩
  · rw [hsame]
    exact htop.best rival hrival (hkey.trans hroot') hsampled
  · -- The work ids are distinct, so the smaller one is strictly smaller.
    have hle : kept.workId ≤ best.workId := hrank.elim (fun hlt => absurd hsame hlt.ne) (·.2)
    refine lt_of_le_of_ne hle fun hid => hdiffers ?_
    have heq : kept = best := List.inj_on_of_nodup_map hids
      (List.mem_filter.mp hkept').1 (List.mem_filter.mp hvalid).1 hid
    rw [← heq, hown', hown]

/-- Some entries first, the others after them. -/
def bringForward (first : BranchDecisionLogEntry → Bool) (entries : List BranchDecisionLogEntry) :
    List BranchDecisionLogEntry :=
  entries.filter first ++ entries.filter fun entry => !first entry

theorem bringForward_perm (first : BranchDecisionLogEntry → Bool)
    (entries : List BranchDecisionLogEntry) : (bringForward first entries).Perm entries :=
  List.filter_append_perm first entries

/-- Under a hypothesis that has best samples brought forward, one of them is kept. -/
theorem kept_of_first {first : BranchDecisionLogEntry → Bool}
    (hfirst : ∀ other, first other = true → Top entries other)
    {rootActionKey hypothesis : String} {entry : BranchDecisionLogEntry}
    (hmem : entry ∈ groupOf entries rootActionKey hypothesis) (hentry : first entry = true) :
    ∃ kept, first kept = true ∧ kept ∈ groupOf entries rootActionKey hypothesis ∧
      (groupOf (bringForward first entries) rootActionKey hypothesis).foldl better none =
        some kept := by
  have hgroup : groupOf (bringForward first entries) rootActionKey hypothesis =
      (groupOf entries rootActionKey hypothesis).filter first ++
        (groupOf entries rootActionKey hypothesis).filter fun entry => !first entry := by
    simp only [groupOf, successEntries, bringForward, List.filter_append, List.filter_filter]
    congr 1
    · exact List.filter_congr fun other _ => by ac_rfl
    · exact List.filter_congr fun other _ => by ac_rfl
  have hin : entry ∈ (groupOf entries rootActionKey hypothesis).filter first :=
    List.mem_filter.mpr ⟨hmem, hentry⟩
  rcases List.exists_cons_of_ne_nil (List.ne_nil_of_mem hin) with ⟨kept, rest, hcons⟩
  rcases List.mem_filter.mp (hcons ▸ List.mem_cons_self : kept ∈ _) with ⟨hkept, hkeptFirst⟩
  refine ⟨kept, hkeptFirst, hkept, ?_⟩
  rw [hgroup, hcons, List.cons_append, List.foldl_cons,
    show better none kept = some kept from rfl]
  refine foldl_better_stays fun other hother => ?_
  have hother' : other ∈ groupOf entries rootActionKey hypothesis := by
    refine (groupOf_perm (bringForward_perm first entries) rootActionKey hypothesis).mem_iff.mp ?_
    rw [hgroup, hcons]
    exact List.mem_cons_of_mem kept hother
  rcases mem_groupOf.mp hkept with ⟨-, hkeptRoot, -⟩
  rcases mem_groupOf.mp hother' with ⟨hvalid, hroot, hhypothesis⟩
  exact (hfirst kept hkeptFirst).best other hvalid (hroot.trans hkeptRoot.symm) (hhypothesis ▸ rfl)

/-- Whoever can represent a root action does so in some order of the entries: it and
    those it has to be above come first. -/
theorem electable_representative {entry : BranchDecisionLogEntry}
    (h : Electable entries entry) :
    ∃ reordered : List BranchDecisionLogEntry, reordered.Perm entries ∧
      representative ((samplesOf entry.rootActionKey (successEntries reordered)).entries.map
        (·.2)) = some entry := by
  classical
  let first : BranchDecisionLogEntry → Bool := fun other => decide (other = entry ∨
    (Top entries other ∧ other.hypothesisId ≠ entry.hypothesisId ∧ other.workId < entry.workId))
  have hfirst : ∀ other, first other = true → Top entries other := by
    intro other hother
    rcases of_decide_eq_true hother with rfl | ⟨htop, -⟩
    · exact h.toTop
    · exact htop
  have hperm := bringForward_perm first entries
  rcases Option.isSome_iff_exists.mp h.sampled with ⟨own, hown⟩
  -- Under its own hypothesis the entry itself is kept.
  have hself : (groupOf (bringForward first entries) entry.rootActionKey own).foldl better none =
      some entry := by
    rcases kept_of_first hfirst (mem_groupOf.mpr ⟨h.mem, rfl, hown⟩)
      (decide_eq_true (.inl rfl)) with ⟨kept, hkept, hmem, hbest⟩
    rcases of_decide_eq_true hkept with rfl | ⟨-, hdiffers, -⟩
    · exact hbest
    · exact absurd ((mem_groupOf.mp hmem).2.2.trans hown.symm) hdiffers
  refine ⟨bringForward first entries, hperm,
    representative_eq_some (mem_samples_iff.mpr ⟨own, hself⟩) fun other hother hne => ?_⟩
  -- Under another hypothesis it is a worse sample, or a best one with a smaller work id.
  rcases mem_samples_iff.mp hother with ⟨hypothesis, hbest⟩
  have hmem := (groupOf_perm hperm _ _).mem_iff.mp (foldl_better_eq_some hbest).1
  rcases mem_groupOf.mp hmem with ⟨hvalid, hroot, hhypothesis⟩
  have hle : other.value ≤ entry.value := h.best other hvalid hroot (hhypothesis ▸ rfl)
  rcases hle.lt_or_eq with hlt | heq
  · exact .inl hlt
  · refine .inr ⟨heq, ?_⟩
    have htop : Top entries other := by
      refine ⟨hvalid, hhypothesis ▸ rfl, fun rival hrival hkey hsampled => ?_⟩
      rw [heq]
      exact h.best rival hrival (hkey.trans hroot) hsampled
    have hdiffers : other.hypothesisId ≠ entry.hypothesisId := by
      intro hsame
      have hown' : hypothesis = own :=
        Option.some.inj (hhypothesis.symm.trans (hsame.trans hown))
      rw [hown', hself] at hbest
      exact hne (Option.some.inj hbest).symm
    rcases h.above other htop hroot hdiffers with ⟨rival, hrival, hrivalRoot, hsame, hid⟩
    rcases kept_of_first hfirst
        (mem_groupOf.mpr ⟨hrival.mem, hrivalRoot, hsame.trans hhypothesis⟩)
        (decide_eq_true (.inr ⟨hrival, fun heq => hdiffers (hsame.symm.trans heq), hid⟩)) with
      ⟨kept, hkept, -, hkeptBest⟩
    rw [hbest] at hkeptBest
    cases hkeptBest
    exact ((of_decide_eq_true hkept).resolve_left hne).2.2

end Election

/-!
### The decision

The decision over all orders of the entries, and when they all promise the same.
-/

section Decision

variable (minCoverageFraction : ℚ) (entries : List BranchDecisionLogEntry)

/-- The search evaluation: `aggregate_hypothesis_results`, then `build_commit_decision`. -/
def decideHypotheses (hypothesisInvolved verifyMainInvariant : Bool) :
    Except PyException CommitDecision := do
  let aggregation ← aggregateHypothesisResults minCoverageFraction entries
  buildCommitDecision aggregation hypothesisInvolved verifyMainInvariant

/-- A round that a search can end with. The fraction is a float. -/
structure Admissible : Prop where
  fraction : 0 ≤ minCoverageFraction ∧ minCoverageFraction ≤ 1
  double : PyNumber.nearestDouble minCoverageFraction = minCoverageFraction
  final : ∀ entry ∈ entries, entry.workItemState.isFinal = true
  distinct : (entries.map (·.workId)).Nodup
  action : ∀ entry ∈ successEntries entries, entry.semanticAction.isSome

/-- The first root action has a sample wherever the second has one, and it is as
    good. -/
def Dominates (rootActionKey other : String) : Prop :=
  ∀ hypothesis worse, (samplesOf other (successEntries entries)).get? hypothesis = some worse →
    ∃ sample, (samplesOf rootActionKey (successEntries entries)).get? hypothesis = some sample ∧
      worse.value ≤ sample.value

/-- The step that is planned for an entry. -/
def decidedStep (hypothesisInvolved : Bool) (entry : BranchDecisionLogEntry)
    (action : SemanticAction) : PlannedStep where
  semanticAction := action
  targetIndex := entry.targetIndex
  targetEnemyIndex := entry.targetEnemyIndex
  expectedSignature := if hypothesisInvolved then none else entry.resultSignature

/-- What the decision of a round promises. -/
structure SoundDecision : Prop where
  total : ∀ hypothesisInvolved verifyMainInvariant, ∃ decision,
    decideHypotheses minCoverageFraction entries hypothesisInvolved verifyMainInvariant =
      .ok decision
  order : ∀ hypothesisInvolved verifyMainInvariant,
    ∀ reordered : List BranchDecisionLogEntry, reordered.Perm entries →
      decideHypotheses minCoverageFraction reordered hypothesisInvolved verifyMainInvariant =
        decideHypotheses minCoverageFraction entries hypothesisInvolved verifyMainInvariant
  covered : ∀ hypothesisInvolved verifyMainInvariant plannedSequence,
    decideHypotheses minCoverageFraction entries hypothesisInvolved verifyMainInvariant =
        .ok (.success plannedSequence) →
      ∃ entry ∈ entries, ¬ Excluded minCoverageFraction entries entry.rootActionKey ∧
        ∃ action, entry.semanticAction = some action ∧
          plannedSequence = [decidedStep hypothesisInvolved entry action]
  dominance : ∀ aggregation,
    aggregateHypothesisResults minCoverageFraction entries = .ok aggregation →
      ∀ other ∈ aggregation.viableActions, ∀ rootActionKey ∈ allRoots entries,
        Dominates entries rootActionKey other.rootActionKey →
          ∃ action ∈ aggregation.viableActions, action.rootActionKey = rootActionKey ∧
            other.aggregateScore ≤ action.aggregateScore

/-- Two entries plan the same step. -/
structure SameStep (entry other : BranchDecisionLogEntry) : Prop where
  semanticAction : entry.semanticAction = other.semanticAction
  targetIndex : entry.targetIndex = other.targetIndex
  targetEnemyIndex : entry.targetEnemyIndex = other.targetEnemyIndex
  resultSignature : entry.resultSignature = other.resultSignature

/-- Whoever represents the leading root action, the same step is planned. -/
def TiesAgree : Prop :=
  ∀ entry other, Electable entries entry → Electable entries other →
    Leads minCoverageFraction entries entry.rootActionKey →
    other.rootActionKey = entry.rootActionKey → SameStep entry other

variable {minCoverageFraction} {entries} {reordered : List BranchDecisionLogEntry}

theorem Admissible.perm (h : reordered.Perm entries)
    (hadm : Admissible minCoverageFraction entries) :
    Admissible minCoverageFraction reordered where
  fraction := hadm.fraction
  double := hadm.double
  final entry hentry := hadm.final entry (h.mem_iff.mp hentry)
  distinct := (h.map _).nodup_iff.mpr hadm.distinct
  action entry hentry := hadm.action entry ((successEntries_perm h).mem_iff.mp hentry)

/-- What is decided on an entry that represents the best action. -/
theorem buildCommitDecision_of_best {aggregation : AggregationResult}
    {best : RootActionAggregation} {action : SemanticAction}
    (hbest : aggregation.bestAction = some best)
    (haction : best.representativeEntry.semanticAction = some action)
    (hypothesisInvolved verifyMainInvariant : Bool) :
    buildCommitDecision aggregation hypothesisInvolved verifyMainInvariant =
      .ok (if verifyMainInvariant then
        .success [decidedStep hypothesisInvolved best.representativeEntry action]
      else .mainFault "Main state identity changed during search aggregation") := by
  unfold buildCommitDecision
  rw [hbest]
  cases verifyMainInvariant with
  | false => rfl
  | true =>
      dsimp only
      rw [if_neg (by simp), haction]
      rfl

/-- A covered round is decided on the entry that represents the leading root action,
    and comes to nothing where no root action with a sample leads. -/
theorem decideHypotheses_cases (hadm : Admissible minCoverageFraction entries)
    (hcovered : Covered minCoverageFraction entries) :
    (∃ entry action, Leads minCoverageFraction entries entry.rootActionKey ∧
      representative ((samplesOf entry.rootActionKey (successEntries entries)).entries.map (·.2)) =
        some entry ∧ entry.semanticAction = some action ∧
      ∀ hypothesisInvolved verifyMainInvariant,
        decideHypotheses minCoverageFraction entries hypothesisInvolved verifyMainInvariant =
          .ok (if verifyMainInvariant then .success [decidedStep hypothesisInvolved entry action]
            else .mainFault "Main state identity changed during search aggregation")) ∨
    (∀ rootActionKey, Leads minCoverageFraction entries rootActionKey →
      sampleCount rootActionKey entries = 0) ∧
      ∀ hypothesisInvolved verifyMainInvariant,
        decideHypotheses minCoverageFraction entries hypothesisInvolved verifyMainInvariant =
          .ok (.evaluationFailure "search evaluation produced zero viable Root Actions") := by
  -- The aggregation raises nothing, as the entries are admissible and the roots covered.
  rcases (aggregateHypothesisResults_isOk hadm.fraction hadm.double hadm.final).mpr hcovered with
    ⟨aggregation, haggregation⟩
  unfold decideHypotheses
  rw [haggregation]
  -- A best action is the leading root's, and its representative is decided on.
  cases hbest : aggregation.bestAction with
  | some best =>
      left
      rcases bestAction_leads hadm.fraction hadm.final haggregation hbest with
        ⟨hleads, hrepresentative⟩
      rcases representative_electable hadm.distinct hrepresentative with ⟨helectable, hroot⟩
      rcases Option.isSome_iff_exists.mp (hadm.action _ helectable.mem) with ⟨action, haction⟩
      exact ⟨best.representativeEntry, action, hroot ▸ hleads, hroot ▸ hrepresentative, haction,
        buildCommitDecision_of_best hbest haction⟩
  -- Without one no root has a sample, so that nothing can be decided on.
  | none =>
      right
      have hnil : aggregation.viableActions = [] := List.head?_eq_none_iff.mp hbest
      refine ⟨fun root hleads => ?_, fun hypothesisInvolved verifyMainInvariant => ?_⟩
      · rcases aggregateHypothesisResults_eq_ok hadm.fraction hadm.final haggregation with
          ⟨hempty, -⟩ | ⟨hempty, -⟩
        · -- Without hypotheses or successes there are no samples.
          rw [← samplesOf_length, List.length_eq_zero_iff, List.eq_nil_iff_forall_not_mem]
          intro entry hentry
          rcases mem_samples_iff.mp hentry with ⟨hypothesis, hkept⟩
          rcases mem_groupOf.mp (foldl_better_eq_some hkept).1 with ⟨hvalid, -, hhypothesis⟩
          rcases hempty with hnone | hnone
          · have hmem := mem_allHypotheses.mpr ⟨entry, (List.mem_filter.mp hvalid).1, hhypothesis⟩
            rw [hnone] at hmem
            cases hmem
          · rw [hnone] at hvalid
            cases hvalid
        · rcases exists_viableAction hadm.fraction hadm.final haggregation hempty hleads.root
            hleads.viable with ⟨action, haction, -⟩
          rw [hnil] at haction
          cases haction
      · change buildCommitDecision aggregation hypothesisInvolved verifyMainInvariant = _
        unfold buildCommitDecision
        rw [hbest]

theorem sampleCount_ne_zero_of_representative {rootActionKey : String}
    {entry : BranchDecisionLogEntry}
    (h : representative ((samplesOf rootActionKey (successEntries entries)).entries.map (·.2)) =
      some entry) : sampleCount rootActionKey entries ≠ 0 := by
  rw [← samplesOf_length, Ne, List.length_eq_zero_iff, ← representative_eq_none, h]
  exact Option.some_ne_none entry

/-- A dominating root action is viable too, and not worse. -/
theorem dominance_of_aggregated (hadm : Admissible minCoverageFraction entries)
    {aggregation : AggregationResult}
    (h : aggregateHypothesisResults minCoverageFraction entries = .ok aggregation)
    {other : RootActionAggregation} (hother : other ∈ aggregation.viableActions)
    {rootActionKey : String} (hroot : rootActionKey ∈ allRoots entries)
    (hdominates : Dominates entries rootActionKey other.rootActionKey) :
    ∃ action ∈ aggregation.viableActions, action.rootActionKey = rootActionKey ∧
      other.aggregateScore ≤ action.aggregateScore := by
  rcases (aggregateHypothesisResults_eq_ok hadm.fraction hadm.final h).resolve_left fun hnone =>
    List.ne_nil_of_mem hother hnone.2 with ⟨hempty, -, hmem⟩
  rcases (hmem other).mp hother with ⟨root, -, hok⟩
  rcases rootAggregation_eq_some hok with ⟨hcounts, rfl, -, hscore⟩
  -- It has at least as many samples.
  have hkeys : (samplesOf other.rootActionKey (successEntries entries)).keys ⊆
      (samplesOf rootActionKey (successEntries entries)).keys := by
    intro hypothesis hkey
    rcases (Dict.mem_keys_iff _ hypothesis).mp hkey with ⟨worse, hworse⟩
    rcases hdominates hypothesis worse hworse with ⟨sample, hsample, -⟩
    exact (Dict.mem_keys_iff _ hypothesis).mpr ⟨sample, hsample⟩
  have hcount := (List.subperm_of_subset (Dict.nodup _) hkeys).length_le
  have hcounts' : ¬ Excluded minCoverageFraction entries rootActionKey := by
    intro hexcluded
    refine hcounts (lt_of_le_of_lt ?_ hexcluded)
    simp only [Dict.keys, List.length_map] at hcount ⊢
    exact_mod_cast hcount
  rcases exists_viableAction hadm.fraction hadm.final h hempty hroot hcounts' with
    ⟨action, haction, hkey, hscore'⟩
  refine ⟨action, haction, hkey, ?_⟩
  rw [hscore, hscore']
  refine div_le_div_of_nonneg_right (List.sum_le_sum fun hypothesis _ => ?_) (Nat.cast_nonneg _)
  cases hworse : (groupOf entries other.rootActionKey hypothesis).foldl better none with
  | none =>
      rw [sampleScore_of_none hworse]
      exact worstScore_le_sampleScore rootActionKey hypothesis
  | some worse =>
      have hget := hworse
      rw [← samplesOf_get?] at hget
      rcases hdominates hypothesis worse hget with ⟨sample, hsample, hle⟩
      rw [samplesOf_get?] at hsample
      rw [sampleScore_of_some hworse, sampleScore_of_some hsample]
      exact hle

/-- Where the ties agree, the order of the entries does not matter. -/
theorem decideHypotheses_perm (hadm : Admissible minCoverageFraction entries)
    (hcovered : Covered minCoverageFraction entries)
    (hties : TiesAgree minCoverageFraction entries) (h : reordered.Perm entries)
    (hypothesisInvolved verifyMainInvariant : Bool) :
    decideHypotheses minCoverageFraction reordered hypothesisInvolved verifyMainInvariant =
      decideHypotheses minCoverageFraction entries hypothesisInvolved verifyMainInvariant := by
  -- Both orders are decided on in one of two ways, and they agree in which.
  rcases decideHypotheses_cases hadm hcovered with
    ⟨entry, action, hleads, hrepresentative, haction, hdecision⟩ | ⟨hnone, hdecision⟩
  · rcases decideHypotheses_cases (hadm.perm h) (hcovered.perm h) with
      ⟨entry', action', hleads', hrepresentative', haction', hdecision'⟩ | ⟨hnone', -⟩
    -- The leading root is the same one, and by the ties its representatives agree in what is
    -- decided.
    · rw [hdecision, hdecision']
      have hroot := (hleads'.perm h).unique hleads
      have helectable := (representative_electable hadm.distinct hrepresentative).1
      have helectable' := (representative_electable (hadm.perm h).distinct hrepresentative').1
      have hsame := hties entry entry' helectable (helectable'.perm h) hleads hroot
      have haction'' : action' = action := by
        rw [hsame.semanticAction, haction'] at haction
        exact Option.some.inj haction
      unfold decidedStep
      rw [haction'', hsame.targetIndex, hsame.targetEnemyIndex, hsame.resultSignature]
    · exfalso
      refine sampleCount_ne_zero_of_representative hrepresentative ?_
      rw [← sampleCount_perm h]
      exact hnone' _ (hleads.perm h.symm)
  · rcases decideHypotheses_cases (hadm.perm h) (hcovered.perm h) with
      ⟨entry', -, hleads', hrepresentative', -, -⟩ | ⟨-, hdecision'⟩
    · exfalso
      refine sampleCount_ne_zero_of_representative hrepresentative' ?_
      rw [sampleCount_perm h]
      exact hnone _ (hleads'.perm h)
    · rw [hdecision, hdecision']

/-- In some order of the entries, an electable entry of the leading root action is
    what is decided on. -/
theorem exists_decided_on (hadm : Admissible minCoverageFraction entries)
    (hcovered : Covered minCoverageFraction entries) {entry : BranchDecisionLogEntry}
    (helectable : Electable entries entry)
    (hleads : Leads minCoverageFraction entries entry.rootActionKey) :
    ∃ reordered : List BranchDecisionLogEntry, reordered.Perm entries ∧
      ∃ action, entry.semanticAction = some action ∧
        decideHypotheses minCoverageFraction reordered false true =
          .ok (.success [decidedStep false entry action]) := by
  rcases electable_representative helectable with ⟨reordered, hperm, hrepresentative⟩
  refine ⟨reordered, hperm, ?_⟩
  rcases decideHypotheses_cases (hadm.perm hperm) (hcovered.perm hperm) with
    ⟨found, action, hleads', hfound, haction, hdecision⟩ | ⟨hnone, -⟩
  · rw [(hleads'.perm hperm).unique hleads, hrepresentative] at hfound
    cases hfound
    exact ⟨action, haction, hdecision false true⟩
  · exact absurd (hnone _ (hleads.perm hperm.symm))
      (sampleCount_ne_zero_of_representative hrepresentative)

/-- The law of the decision: it is sound exactly when a round that requires no sample
    has one for every root action, and the ties of the leading root action agree. -/
theorem sound_decision_iff (minCoverageFraction : ℚ) (entries : List BranchDecisionLogEntry)
    (hadm : Admissible minCoverageFraction entries) :
    SoundDecision minCoverageFraction entries ↔
      Covered minCoverageFraction entries ∧ TiesAgree minCoverageFraction entries := by
  constructor
  · intro hsound
    have hcovered : Covered minCoverageFraction entries := by
      rcases hsound.total false true with ⟨decision, hdecision⟩
      rcases (Except.bind_eq_ok _ _ _).mp hdecision with ⟨aggregation, haggregation, -⟩
      exact (aggregateHypothesisResults_isOk hadm.fraction hadm.double hadm.final).mp
        ⟨aggregation, haggregation⟩
    refine ⟨hcovered, fun entry other helectable helectable' hleads hroot => ?_⟩
    rcases exists_decided_on hadm hcovered helectable hleads with
      ⟨reordered, hperm, action, haction, hdecision⟩
    rcases exists_decided_on hadm hcovered helectable' (hroot ▸ hleads) with
      ⟨reordered', hperm', action', haction', hdecision'⟩
    -- Both are what the round is decided on.
    rw [hsound.order false true reordered hperm] at hdecision
    rw [hsound.order false true reordered' hperm', hdecision] at hdecision'
    simp only [decidedStep, Except.ok.injEq, CommitDecision.success.injEq, List.cons.injEq,
      PlannedStep.mk.injEq, Bool.false_eq_true, if_false, and_true] at hdecision'
    rcases hdecision' with ⟨rfl, htarget, henemy, hsignature⟩
    exact ⟨haction.trans haction'.symm, htarget, henemy, hsignature⟩
  · rintro ⟨hcovered, hties⟩
    refine ⟨fun hypothesisInvolved verifyMainInvariant => ?_,
      fun hypothesisInvolved verifyMainInvariant reordered hperm =>
        decideHypotheses_perm hadm hcovered hties hperm hypothesisInvolved verifyMainInvariant,
      fun hypothesisInvolved verifyMainInvariant plannedSequence hdecision => ?_,
      fun aggregation haggregation other hother rootActionKey hroot hdominates =>
        dominance_of_aggregated hadm haggregation hother hroot hdominates⟩
    · rcases decideHypotheses_cases hadm hcovered with
        ⟨entry, action, -, -, -, hdecision⟩ | ⟨-, hdecision⟩
      · exact ⟨_, hdecision hypothesisInvolved verifyMainInvariant⟩
      · exact ⟨_, hdecision hypothesisInvolved verifyMainInvariant⟩
    · rcases decideHypotheses_cases hadm hcovered with
        ⟨entry, action, hleads, hrepresentative, haction, hdecision'⟩ | ⟨-, hdecision'⟩
      · rw [hdecision'] at hdecision
        have hentry := (representative_electable hadm.distinct hrepresentative).1.mem
        refine ⟨entry, (List.mem_filter.mp hentry).1, hleads.viable, action, haction, ?_⟩
        cases verifyMainInvariant with
        | false => cases hdecision
        | true =>
            cases hdecision
            rfl
      · rw [hdecision'] at hdecision
        cases hdecision

/-- An entry of a small round. -/
def roundEntry (workId rootActionKey hypothesis : String) (score : Option ℚ) :
    BranchDecisionLogEntry where
  status := if score.isSome then .success else .actionFault
  rootActionKey
  hypothesisId := some hypothesis
  workId
  workItemState := if score.isSome then .finalSuccess else .finalFault
  score
  semanticAction := some { actionType := "card", semanticKey := rootActionKey }
  score_isSome := by
    cases score with
    | none => simp
    | some score => simp

/-- Two root actions under two hypotheses. The best samples of the first are tied, and
    one sample of the second has faulted. -/
def smallRound : List BranchDecisionLogEntry :=
  [roundEntry "w1" "strike" "h1" (some 3), roundEntry "w2" "defend" "h1" (some 1),
    roundEntry "w3" "strike" "h2" (some 3), roundEntry "w4" "defend" "h2" none]

theorem half_isDouble : PyNumber.nearestDouble (1 / 2) = 1 / 2 := by decide +kernel

/-- Its decision is the same in every order, for equal entries plan the same step. -/
theorem sound_decision_small : SoundDecision (1 / 2) smallRound := by
  have hadm : Admissible (1 / 2) smallRound :=
    ⟨by norm_num, half_isDouble, by decide, by decide, by decide⟩
  refine (sound_decision_iff (1 / 2) smallRound hadm).mpr
    ⟨fun hzero => absurd hzero (by norm_num), fun entry other hentry hother _ hroot => ?_⟩
  -- What an entry of this round plans is told by its root action.
  have hplans : ∀ entry ∈ smallRound,
      entry.semanticAction = some ⟨"card", entry.rootActionKey⟩ ∧ entry.targetIndex = none ∧
        entry.targetEnemyIndex = none ∧ entry.resultSignature = none := by decide
  rcases hplans entry (List.mem_filter.mp hentry.mem).1 with ⟨haction, htarget, henemy, hresult⟩
  rcases hplans other (List.mem_filter.mp hother.mem).1 with
    ⟨haction', htarget', henemy', hresult'⟩
  exact ⟨haction.trans (hroot ▸ haction'.symm), htarget.trans htarget'.symm,
    henemy.trans henemy'.symm, hresult.trans hresult'.symm⟩

/-- Without a required sample, a root action whose every sample faulted makes the
    decision raise. -/
theorem faulted_root_raises :
    Admissible 0 [roundEntry "w1" "end" "h" (some 1), roundEntry "w2" "other" "h" none] ∧
      ¬ SoundDecision 0 [roundEntry "w1" "end" "h" (some 1),
        roundEntry "w2" "other" "h" none] := by
  refine ⟨⟨by norm_num, if_pos rfl, by decide, by decide, by decide⟩, fun hsound => ?_⟩
  rcases hsound.total true true with ⟨decision, hdecision⟩
  rcases (Except.bind_eq_ok _ _ _).mp hdecision with ⟨aggregation, haggregation, -⟩
  have hcovered := (aggregateHypothesisResults_isOk (by norm_num) (if_pos rfl) (by decide)).mp
    ⟨aggregation, haggregation⟩
  rcases hcovered rfl with hnone | hnone | hall
  · exact absurd hnone (by decide)
  · exact absurd hnone (by decide)
  · refine hall "other" ?_ (by decide)
    rw [allRoots, List.mem_mergeSort, List.mem_dedup]
    decide

end Decision

end Combat

end STS2RL
