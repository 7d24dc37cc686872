import STS2RL.Api.HiddenFields
import STS2RL.Api.PendingChoiceNormal
import STS2RL.Api.PileOrder

/-!
# Masking Twice

What is published is masked again on its way: legal actions are masked when they
are listed, and once more with the state that they are published in. The second
mask sees the result of the first, under the same names.

Almost everything that is published is published again as it is. Two results are
not. A pile is published as records with counts, and the records are read as
cards, one each, so a count that was more than one becomes one. A pending choice
that is no object is published as an object of nothing, and of that it is said
that its meaning is unknown.

## Main definitions

* `Settled`: Piles without repeated cards, and choices that are objects.

## Theorems

* `multisetOf_twice_iff`: A pile is published again as it is.
* `normalizePendingChoice_scrub`: So is a pending choice.
* `scrub_twice_iff`: The mask of a mask.
* `masking_twice_iff`: States and legal actions that are masked twice.
-/

namespace STS2RL

namespace Api

/-!
### Piles

A pile that was masked is a list of public cards with their counts. Masking it again
counts each of them once, so it is the same only if every count was one.
-/

section Piles

/-- A record is read as its card. -/
theorem readCard_record {card : PublicCard} (hid : card.id ≠ .null)
    (hscalar : ∀ part ∈ card.identityKey, isScalar part = true) (n : Nat) :
    ∃ entry, countedEntry (card.record n) = some entry ∧ readCard entry = .ok card := by
  refine ⟨_, if_neg hid, readCard_eq_ok.mpr ⟨card.upgradeLevel, card.enchantment, ?_, ?_, ?_,
    hscalar⟩⟩
  · -- A level of zero counts as nothing, and is read as zero.
    change readUpgradeLevel (.int card.upgradeLevel) = _
    by_cases hzero : card.upgradeLevel = 0
    · rw [hzero]
      rfl
    · simp [readUpgradeLevel, truthy, intOf, hzero]
  · change readEnchantment card.publicEnchantment = _
    rcases henchantment : card.enchantment with _ | ⟨enchantmentId, amount, status⟩
    · simp [PublicCard.publicEnchantment, henchantment, readEnchantment, truthy]
    · simp only [PublicCard.publicEnchantment, henchantment]
      rfl
  · rcases card with ⟨_, _, _, _, _, upgraded, _, _, _, _⟩
    cases upgraded <;> rfl

/-- A card that was read has an id. -/
theorem id_of_readPile {pile : List Json} {cards : List PublicCard}
    (hread : readPile pile = .ok cards) : ∀ card ∈ cards, card.id ≠ .null := by
  intro card hcard
  rcases Except.exists_of_mem_mapM readCard _ cards hread card hcard with ⟨entry, hmem, hentry⟩
  rcases List.mem_filterMap.mp hmem with ⟨value, -, hcounted⟩
  rcases readCard_eq_ok.mp hentry with ⟨_, _, -, -, rfl, -⟩
  unfold countedEntry at hcounted
  split at hcounted
  · split at hcounted
    · cases hcounted
    · rename_i hid
      cases hcounted
      exact hid
  · cases hcounted

/-- The records of a pile are read as its cards. -/
theorem readPile_records {counted : List (PublicCard × Nat)}
    (h : ∀ c ∈ counted, c.1.id ≠ .null ∧ ∀ part ∈ c.1.identityKey, isScalar part = true) :
    readPile (counted.map fun c => c.1.record c.2) = .ok (counted.map Prod.fst) := by
  induction counted with
  | nil => rfl
  | cons c rest ih =>
      rcases readCard_record (h c (.head _)).1 (h c (.head _)).2 c.2 with ⟨entry, hcounted, hread⟩
      have hrest := ih fun d hd => h d (.tail _ hd)
      unfold readPile at hrest ⊢
      rw [List.map_cons, List.filterMap_cons_some hcounted, List.mapM_cons, hread]
      dsimp only [bind, Except.bind]
      rw [hrest]
      rfl

/-- Counting the cards of a tally again. -/
theorem sortedTally_twice (cards : List PublicCard) :
    sortedTally ((sortedTally cards).map Prod.fst) =
      ((sortedTally cards).map Prod.fst).map fun card => (card, 1) := by
  have : Std.Total fun a b : PublicCard × Nat => a.1.sortKey ≤ b.1.sortKey :=
    ⟨fun a b => le_total a.1.sortKey b.1.sortKey⟩
  have : IsTrans (PublicCard × Nat) fun a b => a.1.sortKey ≤ b.1.sortKey :=
    ⟨fun _ _ _ hab hbc => le_trans hab hbc⟩
  have hsorted : (sortedTally cards).Pairwise fun a b => a.1.sortKey ≤ b.1.sortKey :=
    List.pairwise_insertionSort _ _
  have hnodup : (((sortedTally cards).map Prod.fst).map PublicCard.identity).Nodup := by
    have hperm := ((List.perm_insertionSort (fun a b : PublicCard × Nat =>
      a.1.sortKey ≤ b.1.sortKey) (Tally.tally PublicCard.identity cards)).map Prod.fst).map
        PublicCard.identity
    refine hperm.nodup_iff.mpr ?_
    rw [List.map_map]
    exact (Tally.counts_tally cards).nodup
  rw [sortedTally, Tally.tally_of_nodup hnodup]
  refine List.Pairwise.insertionSort_eq ?_
  rw [List.pairwise_map, List.pairwise_map]
  exact hsorted

theorem record_count_inj {card : PublicCard} {n m : Nat} (h : card.record n = card.record m) :
    n = m := by
  simp only [PublicCard.record, member, Json.obj.injEq, List.cons.injEq, Prod.mk.injEq, true_and,
    and_true, Json.int.injEq] at h
  omega

/-- A pile is published again as it is exactly where no card occurs twice. -/
theorem multisetOf_twice_iff {value x : Json} (hx : multisetOf value = .ok x) :
    multisetOf x = .ok x ↔ ∀ pile cards, value = .list pile → readPile pile = .ok cards →
      (cards.map PublicCard.identity).Nodup := by
  rcases hpile : list? value with _ | pile
  · -- What is no list is published as an empty one.
    have hnot : ∀ pile, value ≠ .list pile := by
      rintro pile rfl
      cases hpile
    have hempty : multisetOf value = .ok (.list []) := by
      cases value <;> first | rfl | cases hpile
    rw [hempty] at hx
    cases hx
    exact ⟨fun _ pile _ heq => absurd heq (hnot pile), fun _ => rfl⟩
  -- A pile is read, its cards are counted, and each is published with its count.
  · have hvalue := eq_list_of_list? hpile
    subst hvalue
    rcases (Except.map_eq_ok _ _ _).mp hx with ⟨cards, hcards, rfl⟩
    have hcounted : ∀ c ∈ sortedTally cards, c.1.id ≠ .null ∧
        ∀ part ∈ c.1.identityKey, isScalar part = true := by
      rintro ⟨card, n⟩ hc
      have hmem := List.mem_of_find?_eq_some
        (Tally.mem_tally_iff.mp ((List.mem_insertionSort _).mp hc)).1
      exact ⟨id_of_readPile hcards card hmem, isScalar_of_mem_readPile hcards card hmem⟩
    -- A published record is read as the card it was made from.
    have hread : readPile ((sortedTally cards).map fun c => c.1.record c.2) = _ :=
      readPile_records hcounted
    -- Read again, each record counts once, so the pile stays as it is exactly if every count is
    -- one.
    have hsame : multisetOf (.list ((sortedTally cards).map fun c => c.1.record c.2)) =
        .ok (.list ((sortedTally cards).map fun c => c.1.record c.2)) ↔
          ∀ c ∈ sortedTally cards, c.2 = 1 := by
      simp only [multisetOf, hread, Except.map, sortedTally_twice, List.map_map, Except.ok.injEq,
        Json.list.injEq]
      constructor
      · intro heq c hc
        exact (record_count_inj (List.map_inj_left.mp heq c hc)).symm
      · intro hone
        refine List.map_congr_left fun c hc => ?_
        dsimp only [Function.comp_apply]
        rw [hone c hc]
    -- And every count is one exactly if no card occurs twice.
    have hone : (∀ c ∈ sortedTally cards, c.2 = 1) ↔ (cards.map PublicCard.identity).Nodup := by
      rw [← Tally.forall_one_iff_nodup]
      exact forall_congr' fun c => by rw [sortedTally, List.mem_insertionSort]
    refine (hsame.trans hone).trans ⟨fun hnodup pile' cards' heq hcards' => ?_,
      fun h => h pile cards rfl hcards⟩
    cases heq
    rw [hcards] at hcards'
    cases hcards'
    exact hnodup

end Piles

/-!
### Choices

The options of a choice are published in a normal form. What is read of it again is what
was published, and the walk goes through it without a change.
-/

section Choices

variable {fields : Fields}

theorem publicOption_eq_self {option : Fields}
    (h : (validToken (getField option "optionId")).isSome = true ∨
      Dict.lookupL (.text "optionId") option = none) : publicOption option = option := by
  rcases h with hvalid | hnone
  · exact if_pos hvalid
  · unfold publicOption
    split
    · rfl
    · refine List.filter_eq_self.mpr fun m hm => ?_
      have hne : m.1 ≠ .text "optionId" := fun heq =>
        Dict.lookupL_eq_none.mp hnone (heq ▸ List.mem_map_of_mem hm)
      simp [hne]

/-- Masking changes no token, and makes none. -/
theorem validToken_scrub {value x : Json} (hx : scrub value = .ok x) :
    validToken x = validToken value := by
  cases value with
  | obj fields =>
      rcases scrub_obj_eq_ok.mp hx with ⟨_, -, rfl⟩
      rfl
  | list items =>
      rcases scrub_list_eq_ok.mp hx with ⟨_, -, rfl⟩
      rfl
  | null | bool _ | int _ | float _ | str _ =>
      rw [scrub_scalar rfl] at hx
      cases hx
      rfl

theorem isPlainKey_optionId : IsPlainKey "optionId" := isPlainKey_of_mem (by simp [plainKeys])

/-- A masked option has the identity of the option. -/
theorem validToken_optionId_scrub {option outs : Fields} (houts : scrubMembers option = .ok outs) :
    validToken (getField outs "optionId") = validToken (getField option "optionId") ∧
      (Dict.lookupL (.text "optionId") option = none →
        Dict.lookupL (.text "optionId") outs = none) := by
  unfold getField
  rcases lookupL_scrubMembers isPlainKey_optionId.kept houts with ⟨hnone, hnone'⟩ |
    ⟨v, x, hv, hx, hscrubbed⟩
  · rw [hnone, hnone']
    exact ⟨rfl, fun _ => rfl⟩
  · rw [hv, hx]
    rw [isPlainKey_optionId.scrubValue_eq] at hscrubbed
    exact ⟨validToken_scrub hscrubbed, fun hnone => nomatch hnone⟩

/-- The mask of the options of a published choice: they are objects, and are
    published as they are, with the identities they had. -/
theorem scrubItems_publicOptions {options : List Fields} {outs : List Json}
    (houts : (options.map fun option => Json.obj (publicOption option)).mapM scrub = .ok outs) :
    ∃ masked : List Fields, outs = masked.map .obj ∧
      (masked.map publicOption = masked) ∧
      (masked.map fun option => validToken (getField option "optionId")) =
        options.map fun option => validToken (getField option "optionId") := by
  -- The induction is on the options; masking one leaves a public option with the same id.
  induction options generalizing outs with
  | nil =>
      cases houts
      exact ⟨[], rfl, rfl, rfl⟩
  | cons option rest ih =>
      rw [List.map_cons, List.mapM_cons] at houts
      rcases (Except.bind_eq_ok _ _ _).mp houts with ⟨x, hx, hrest⟩
      rcases (Except.bind_eq_ok _ _ _).mp hrest with ⟨xs, hxs, hpure⟩
      cases hpure
      rcases scrub_obj_eq_ok.mp hx with ⟨members, hmembers, rfl⟩
      rcases ih hxs with ⟨masked, rfl, hkept, htokens⟩
      rcases validToken_optionId_scrub hmembers with ⟨htoken, hnone⟩
      -- An option whose id is not public has none.
      have hself : publicOption members = members := by
        refine publicOption_eq_self ?_
        by_cases hvalid : (validToken (getField option "optionId")).isSome = true
        · exact .inl (by rwa [htoken, validToken_publicOption])
        · refine .inr (hnone ?_)
          have hoption : publicOption option = option.filter fun m => m.1 ≠ .text "optionId" :=
            if_neg hvalid
          rw [hoption]
          exact lookupL_without option "optionId"
      refine ⟨members :: masked, rfl, ?_, ?_⟩
      · rw [List.map_cons, hself, hkept]
      · rw [List.map_cons, List.map_cons, htokens, htoken, validToken_publicOption]

theorem isPlainKey_publicPendingChoiceKeys : ∀ key ∈ publicPendingChoiceKeys, IsPlainKey key :=
  fun _ hkey => isPlainKey_of_mem (List.mem_append_left _ (List.mem_append_right _ hkey))

theorem isPlainKey_publicChoiceSemanticsKeys :
    ∀ key ∈ publicChoiceSemanticsKeys, IsPlainKey key :=
  fun _ hkey => isPlainKey_of_mem (List.mem_append_right _ hkey)

/-- Flat members under plain names are published as they are. -/
theorem FlatMembers.scrubMembers_eq {keys : List String} {fields : Fields}
    (hplain : ∀ key ∈ keys, IsPlainKey key) (h : FlatMembers keys fields) :
    scrubMembers fields = .ok fields := by
  induction fields with
  | nil => rw [scrubMembers]
  | cons m rest ih =>
      rcases m with ⟨k, value⟩
      rcases h (k, value) List.mem_cons_self with ⟨⟨key, hkey, heq⟩, hscalar⟩
      cases heq
      refine scrubMembers_cons_eq_ok.mpr (.inr ⟨(hplain key hkey).kept, value, rest, ?_,
        ih fun m hm => h m (.tail _ hm), rfl⟩)
      rw [(hplain key hkey).scrubValue_eq, scrub_scalar hscalar]

/-- Entries under plain names that are masks of themselves. -/
theorem scrubMembers_givenEntries {entries : List (String × Option Json)}
    (h : ∀ entry ∈ entries, IsPlainKey entry.1 ∧ ∀ v, entry.2 = some v → scrub v = .ok v) :
    scrubMembers (givenEntries entries) = .ok (givenEntries entries) := by
  induction entries with
  | nil => exact scrubMembers.eq_1
  | cons entry rest ih =>
      rcases entry with ⟨key, _ | value⟩
      · exact ih fun e he => h e (.tail _ he)
      · rcases h _ (.head _) with ⟨hplain, hself⟩
        refine scrubMembers_cons_eq_ok.mpr (.inr ⟨hplain.kept, value, _, ?_,
          ih fun e he => h e (.tail _ he), rfl⟩)
        rw [hplain.scrubValue_eq, hself value rfl]

/-- The entries of a published choice, with other options. -/
def entriesWith (fields : Fields) (options : Option Json) : List (String × Option Json) :=
  (publicEntries fields).take 7 ++ [("options", options)] ++ (publicEntries fields).drop 8

theorem scrub_text (s : PyStr) : scrub (.str s) = .ok (.str s) := scrub_scalar rfl

theorem scrub_texts (texts : List String) :
    scrub (.list (texts.map fun s => .str (.text s))) =
      .ok (.list (texts.map fun s => .str (.text s))) := by
  refine scrub_list_eq_ok.mpr ⟨_, ?_, rfl⟩
  induction texts with
  | nil => rfl
  | cons s rest ih =>
      rw [List.map_cons, List.mapM_cons, scrub_text]
      dsimp only [bind, Except.bind]
      rw [ih]
      rfl

/-- All entries but the options are masks of themselves. -/
theorem scrub_publicEntries {key : String} {value : Json}
    (hmem : (key, some value) ∈ publicEntries fields) (hkey : key ≠ "options") :
    scrub value = .ok value := by
  -- A text, a flag and a count are scalars, and the rest of the public members are lists of
  -- texts or plain records.
  have htext : ∀ v, publicText v = some value → scrub value = .ok value := by
    intro v hv
    cases v <;> cases hv
    exact scrub_text _
  have hcount : ∀ v, publicCount v = some value → scrub value = .ok value := by
    intro v hv
    rcases Option.map_eq_some_iff.mp hv with ⟨z, -, rfl⟩
    exact scrub_scalar rfl
  simp only [publicEntries, List.mem_cons, Prod.mk.injEq, List.not_mem_nil, or_false] at hmem
  rcases hmem with ⟨-, hv⟩ | ⟨-, hv⟩ | ⟨-, hv⟩ | ⟨-, hv⟩ | ⟨-, hv⟩ | ⟨-, hv⟩ | ⟨-, hv⟩ | ⟨hk, -⟩ |
    ⟨-, hv⟩ | ⟨-, hv⟩
  · exact htext _ hv.symm
  · exact htext _ hv.symm
  · rcases hflag : getField fields "scenarioRestorable" with _ | _ | _ | _ | _ | _ | _ <;>
      rw [hflag] at hv <;> cases hv
    exact scrub_scalar rfl
  · exact hcount _ hv.symm
  · exact hcount _ hv.symm
  · exact hcount _ hv.symm
  · rcases Option.map_eq_some_iff.mp hv.symm with ⟨items, -, rfl⟩
    exact scrub_texts _
  · exact absurd hk hkey
  · cases hv
    exact scrub_obj_eq_ok.mpr ⟨_, (flatMembers_publicSemantics fields).scrubMembers_eq
      isPlainKey_publicChoiceSemanticsKeys, rfl⟩
  · unfold publicCause at hv
    split at hv
    · cases hv
    · rcases Option.map_eq_some_iff.mp hv.symm with ⟨s, -, rfl⟩
      exact scrub_text _

/-- Options that were masked: read as they are, with the identities they had. -/
structure OptionsMasked (before after : Option Json) : Prop where
  accepted : publicOptionList (after.getD .null) = after
  tokens : readOptionTokens (after.getD .null) = readOptionTokens (before.getD .null)

/-- The mask of a published choice is one with other options. -/
theorem scrub_publicPendingChoice {x : Json}
    (hx : scrub (.obj (publicPendingChoice fields)) = .ok x) :
    ∃ options, x = .obj (givenEntries (entriesWith fields options)) ∧
      OptionsMasked (publicOptionList (getField fields "options")) options := by
  rcases scrub_obj_eq_ok.mp hx with ⟨outs, houts, rfl⟩
  have hfixed : ∀ entries, entries ⊆ publicEntries fields →
      "options" ∉ entries.map Prod.fst →
      scrubMembers (givenEntries entries) = .ok (givenEntries entries) := by
    intro entries hsub hnot
    refine scrubMembers_givenEntries fun entry hentry => ?_
    rcases entry with ⟨key, value⟩
    refine ⟨isPlainKey_publicPendingChoiceKeys _
      (keys_publicEntries fields (List.mem_map_of_mem (hsub hentry))), ?_⟩
    rintro v rfl
    refine scrub_publicEntries (hsub hentry) fun hkey => hnot ?_
    exact hkey ▸ List.mem_map_of_mem hentry
  have hbefore := hfixed ((publicEntries fields).take 7) (List.take_subset _ _)
    (by simp [publicEntries])
  have hafter := hfixed ((publicEntries fields).drop 8) (List.drop_subset _ _)
    (by simp [publicEntries])
  have hsplit : publicEntries fields = entriesWith fields
      (publicOptionList (getField fields "options")) := rfl
  rw [publicPendingChoice_eq, hsplit, entriesWith, givenEntries_append,
    givenEntries_append] at houts
  rcases scrubMembers_append_eq_ok.mp houts with ⟨_, vs, hfront, hvs, rfl⟩
  rcases scrubMembers_append_eq_ok.mp hfront with ⟨us, ws, hus, hws, rfl⟩
  rw [hbefore] at hus
  cases hus
  rw [hafter] at hvs
  cases hvs
  -- What is left is the mask of the options.
  have hopts : ∃ options, ws = givenEntries [("options", options)] ∧
      OptionsMasked (publicOptionList (getField fields "options")) options := by
    rcases hitems : list? (getField fields "options") with _ | items
    · have hnone : publicOptionList (getField fields "options") = none := by
        simp [publicOptionList, hitems]
      rw [hnone, givenEntries_single, Option.toList_none, List.map_nil, scrubMembers] at hws
      cases hws
      exact ⟨none, rfl, by rw [hnone]; exact ⟨rfl, rfl⟩⟩
    · have hsome : publicOptionList (getField fields "options") =
          some (.list ((items.filterMap Json.fields?).map fun option =>
            .obj (publicOption option))) := by
        simp [publicOptionList, hitems]
      have hplain := isPlainKey_publicPendingChoiceKeys "options" (by decide)
      rw [hsome, givenEntries_single, Option.toList_some, List.map_singleton, member] at hws
      rcases scrubMembers_cons_eq_ok.mp hws with ⟨hdropped, -⟩ | ⟨-, x, rest, hitem, hrest, rfl⟩
      · rw [hplain.kept] at hdropped
        cases hdropped
      · rw [scrubMembers] at hrest
        cases hrest
        rw [hplain.scrubValue_eq] at hitem
        rcases scrub_list_eq_ok.mp hitem with ⟨maskedItems, hmasked, rfl⟩
        rcases scrubItems_publicOptions hmasked with ⟨masked, rfl, hkept, htokens⟩
        refine ⟨some (.list (masked.map .obj)), rfl, ?_, ?_⟩
        · simp only [Option.getD_some, publicOptionList, list?, Option.map_some,
            filterMap_fields_objects]
          have hobjects : (masked.map fun option => Json.obj (publicOption option)) =
              (masked.map publicOption).map .obj := (List.map_map ..).symm
          rw [hobjects, hkept]
        · rw [hsome]
          simp only [Option.getD_some, readOptionTokens, list?, Option.map_some,
            filterMap_fields_objects, filterMap_fields_publicOptions, List.length_map]
          rw [List.filterMap_map, Function.comp_def]
          simp only [validToken_publicOption]
          have hlength := congrArg List.length htokens
          have htokens' := congrArg (List.filterMap id) htokens
          rw [List.length_map, List.length_map] at hlength
          rw [List.filterMap_map, List.filterMap_map] at htokens'
          rw [hlength]
          exact congrArg (fun tokens => some (_, tokens)) htokens'
  rcases hopts with ⟨options, rfl, hmasked⟩
  refine ⟨options, ?_, hmasked⟩
  rw [entriesWith, givenEntries_append, givenEntries_append]

/-- A choice that is published as it is may have its options masked. -/
theorem publicPendingChoice_entriesWith {options : Option Json}
    (h : OptionsMasked (publicOptionList (getField fields "options")) options) :
    publicPendingChoice (givenEntries (entriesWith fields options)) =
      givenEntries (entriesWith fields options) := by
  have hnodup : ((entriesWith fields options).map Prod.fst).Nodup := nodup_publicEntries fields
  have hoptions : getField (givenEntries (entriesWith fields options)) "options" =
      options.getD .null := getField_givenEntries hnodup (by simp [entriesWith])
  -- Everything else is found as in the choice that is published.
  have hsame : ∀ key value, (key, value) ∈ publicEntries fields → key ≠ "options" →
      getField (givenEntries (entriesWith fields options)) key =
        getField (publicPendingChoice fields) key := by
    intro key value hmem hkey
    rw [getField_publicPendingChoice fields hmem]
    refine getField_givenEntries hnodup ?_
    have hsplit : publicEntries fields = entriesWith fields
      (publicOptionList (getField fields "options")) := rfl
    rw [hsplit] at hmem
    simp only [entriesWith, List.mem_append, List.mem_singleton, Prod.mk.injEq] at hmem ⊢
    rcases hmem with (hmem | ⟨hk, -⟩) | hmem
    · exact .inl (.inl hmem)
    · exact absurd hk hkey
    · exact .inr hmem
  have hsemantics : publicSemantics (givenEntries (entriesWith fields options)) =
      publicSemantics fields := by
    have hpublished : getField (publicPendingChoice fields) "options" =
        (publicOptionList (getField fields "options")).getD .null :=
      getField_publicPendingChoice fields (by simp [publicEntries])
    have hvalid : identityValid (givenEntries (entriesWith fields options)) =
        identityValid (publicPendingChoice fields) := by
      unfold identityValid
      rw [hsame "selectedOptionIds" _ (by simp [publicEntries]; rfl) (by decide),
        hsame "selectedCount" _ (by simp [publicEntries]; rfl) (by decide), hoptions, h.tokens,
        hpublished]
    rw [← publicSemantics_publicPendingChoice fields, publicSemantics, publicSemantics, hvalid,
      hsame "choiceSemantics" _ (by simp [publicEntries]; rfl) (by decide)]
  have hcause : publicCause (givenEntries (entriesWith fields options)) = publicCause fields := by
    rw [← publicCause_publicPendingChoice fields, publicCause, publicCause, hsemantics,
      publicSemantics_publicPendingChoice,
      hsame "sourceEffectId" _ (by simp [publicEntries]; rfl) (by decide)]
  have hread : ∀ key read, AcceptsResults read → key ≠ "options" →
      (key, read (getField fields key)) ∈ publicEntries fields →
      read (getField (givenEntries (entriesWith fields options)) key) =
        read (getField fields key) := by
    intro key read haccepts hkey hmem
    rw [hsame key _ hmem hkey, getField_publicPendingChoice fields hmem]
    exact haccepts _
  have hentries : publicEntries (givenEntries (entriesWith fields options)) =
      entriesWith fields options := by
    have hunfold : entriesWith fields options =
        [("choiceType", publicText (getField fields "choiceType")),
          ("scope", publicText (getField fields "scope")),
          ("scenarioRestorable", publicFlag (getField fields "scenarioRestorable")),
          ("minSelect", publicCount (getField fields "minSelect")),
          ("maxSelect", publicCount (getField fields "maxSelect")),
          ("selectedCount", publicCount (getField fields "selectedCount")),
          ("selectedOptionIds", publicTokens (getField fields "selectedOptionIds")),
          ("options", options), ("choiceSemantics", some (.obj (publicSemantics fields))),
          ("sourceEffectId", publicCause fields)] := rfl
    rw [publicEntries,
      hread "choiceType" publicText publicText_acceptsResults (by decide) (by simp [publicEntries]),
      hread "scope" publicText publicText_acceptsResults (by decide) (by simp [publicEntries]),
      hread "scenarioRestorable" publicFlag publicFlag_acceptsResults (by decide)
        (by simp [publicEntries]),
      hread "minSelect" publicCount publicCount_acceptsResults (by decide)
        (by simp [publicEntries]),
      hread "maxSelect" publicCount publicCount_acceptsResults (by decide)
        (by simp [publicEntries]),
      hread "selectedCount" publicCount publicCount_acceptsResults (by decide)
        (by simp [publicEntries]),
      hread "selectedOptionIds" publicTokens publicTokens_acceptsResults (by decide)
        (by simp [publicEntries]),
      hoptions, h.accepted, hsemantics, hcause, hunfold]
  rw [publicPendingChoice_eq, hentries]

/-- The mask of a published choice is published as it is. -/
theorem normalizePendingChoice_scrub {x : Json}
    (hx : scrub (.obj (publicPendingChoice fields)) = .ok x) : normalizePendingChoice x = x := by
  rcases scrub_publicPendingChoice hx with ⟨options, rfl, hmasked⟩
  exact congrArg Json.obj (publicPendingChoice_entriesWith hmasked)

end Choices

/-!
### Masking a state twice

The walk leaves a value alone exactly when every object in it is settled, and a masked
state is settled except for its piles.
-/

section Twice

/-- Piles without repeated cards, and choices that are objects. -/
structure Settled (node : Json) : Prop where
  piles : ∀ key pile cards, key ∈ multisetPileKeys → Visits node key (.list pile) →
    readPile pile = .ok cards → (cards.map PublicCard.identity).Nodup
  choices : ∀ value, Visits node (.text "pendingChoice") value → value.fields?.isSome = true

/-- The same of a member, and of what the mask goes on with. -/
structure SettledMember (key : PyStr) (value : Json) : Prop where
  pile : key ∈ multisetPileKeys → ∀ pile cards, value = .list pile → readPile pile = .ok cards →
    (cards.map PublicCard.identity).Nodup
  choice : key = .text "pendingChoice" → value.fields?.isSome = true
  inside : ∀ node, entered key value = some node → Settled node

theorem settled_scalar {node : Json} (h : isScalar node = true) : Settled node := by
  refine ⟨fun _ _ _ _ hvisits => ?_, fun _ hvisits => ?_⟩ <;> cases hvisits <;> cases h

theorem settled_list_iff {items : List Json} :
    Settled (.list items) ↔ ∀ item ∈ items, Settled item := by
  constructor
  · intro h item hitem
    exact ⟨fun key pile cards hkey hvisits => h.piles key pile cards hkey (.item hitem hvisits),
      fun value hvisits => h.choices value (.item hitem hvisits)⟩
  · intro h
    refine ⟨fun key pile cards hkey hvisits => ?_, fun value hvisits => ?_⟩
    · cases hvisits with
      | item hitem hinside => exact (h _ hitem).piles key pile cards hkey hinside
    · cases hvisits with
      | item hitem hinside => exact (h _ hitem).choices value hinside

/-- An object is settled when its members are. -/
theorem settled_obj_iff {fields : Fields} :
    Settled (.obj fields) ↔
      ∀ key value, (key, value) ∈ fields → isKept key = true → SettledMember key value := by
  constructor
  · intro h key value hmem hkept
    refine ⟨fun hkey pile cards heq => ?_, fun hkey => ?_, fun node hentered => ⟨?_, ?_⟩⟩
    · exact h.piles key pile cards hkey (heq ▸ .member hmem hkept)
    · exact h.choices value (hkey ▸ .member hmem hkept)
    · exact fun k pile cards hk hvisits =>
        h.piles k pile cards hk (.inside hmem hkept hentered hvisits)
    · exact fun v hvisits => h.choices v (.inside hmem hkept hentered hvisits)
  · intro h
    refine ⟨fun key pile cards hkey hvisits => ?_, fun value hvisits => ?_⟩
    · cases hvisits with
      | member hmem hkept => exact (h _ _ hmem hkept).pile hkey pile cards rfl
      | inside hmem hkept hentered hinside =>
          exact ((h _ _ hmem hkept).inside _ hentered).piles key pile cards hkey hinside
    · cases hvisits with
      | member hmem hkept => exact (h _ _ hmem hkept).choice rfl
      | inside hmem hkept hentered hinside =>
          exact ((h _ _ hmem hkept).inside _ hentered).choices value hinside

theorem pendingChoice_not_mem_multisetPileKeys : PyStr.text "pendingChoice" ∉ multisetPileKeys := by
  decide

/-- A choice that is no object is published as nothing, and then as unknown. -/
theorem scrub_normalizePendingChoice_nil :
    ∃ member, scrub (normalizePendingChoice (.obj [])) = .ok (.obj [member]) := by
  have hpublic : publicPendingChoice [] = [member "choiceSemantics" (.obj unknownSemantics)] := by
    decide +kernel
  have hflat : scrubMembers unknownSemantics = .ok unknownSemantics :=
    flatMembers_unknownSemantics.scrubMembers_eq isPlainKey_publicChoiceSemanticsKeys
  have hplain := isPlainKey_publicPendingChoiceKeys "choiceSemantics" (by decide)
  refine ⟨member "choiceSemantics" (.obj unknownSemantics), ?_⟩
  rw [normalizePendingChoice, hpublic]
  refine scrub_obj_eq_ok.mpr ⟨_, scrubMembers_cons_eq_ok.mpr (.inr ⟨hplain.kept, _, [], ?_,
    scrubMembers.eq_1, rfl⟩), rfl⟩
  rw [hplain.scrubValue_eq]
  exact scrub_obj_eq_ok.mpr ⟨_, hflat, rfl⟩

/-- A member that is published once more. -/
theorem scrubValue_twice_iff {key : PyStr} {value x : Json} (hx : scrubValue key value = .ok x)
    (hinside : ∀ node, entered key value = some node → ∀ out, scrub node = .ok out →
      (scrub out = .ok out ↔ Settled node)) :
    scrubValue key x = .ok x ↔ SettledMember key value := by
  by_cases hpile : key ∈ multisetPileKeys
  · -- Piles: no card may occur twice.
    have hnone : entered key value = none := if_pos hpile
    have hkey : key ≠ .text "pendingChoice" := by
      rintro rfl
      exact pendingChoice_not_mem_multisetPileKeys hpile
    rw [scrubValue_pile hpile] at hx
    rw [scrubValue_pile hpile, multisetOf_twice_iff hx]
    refine ⟨fun h => ⟨fun _ => h, fun heq => absurd heq hkey, fun node hentered => ?_⟩,
      fun h => h.pile hpile⟩
    rw [hnone] at hentered
    cases hentered
  · by_cases hkey : key = .text "pendingChoice"
    · -- Choices: an object is published as it is, anything else changes.
      subst hkey
      have hentered : ∀ v, entered (.text "pendingChoice") v = some (normalizePendingChoice v) :=
        fun _ => (if_neg pendingChoice_not_mem_multisetPileKeys).trans (if_pos rfl)
      rw [scrubValue_of_entered (hentered value)] at hx
      rw [scrubValue_of_entered (hentered x)]
      rcases hfields : value.fields? with _ | fields
      · have hnil : normalizePendingChoice value = .obj [] := by
          cases value <;> first | rfl | cases hfields
        have hx' : x = .obj [] := by
          rw [hnil, scrub_obj_eq_ok.mpr ⟨[], scrubMembers.eq_1, rfl⟩] at hx
          exact (Except.ok.inj hx).symm
        rcases scrub_normalizePendingChoice_nil with ⟨m, hm⟩
        rw [hx', hm]
        constructor
        · intro heq
          cases heq
        · intro h
          have hsome := h.choice rfl
          rw [hfields] at hsome
          cases hsome
      · have hobj : value = .obj fields := by
          cases value <;> cases hfields
          rfl
        subst hobj
        rw [normalizePendingChoice_scrub hx, hinside _ (hentered _) x hx]
        refine ⟨fun h => ⟨fun hmem => absurd hmem pendingChoice_not_mem_multisetPileKeys,
          fun _ => rfl, fun node hnode => ?_⟩, fun h => h.inside _ (hentered _)⟩
        rw [hentered] at hnode
        cases hnode
        exact h
    · by_cases hmetrics : isMetricsKey key = true ∧ value.fields?.isSome = true
      · -- Diagnostics are published as nothing.
        have hnone : entered key value = none := by
          unfold entered
          rw [if_neg hpile, if_neg hkey, if_pos hmetrics]
        have hx' : x = .obj [] := by
          unfold scrubValue at hx
          rw [hnone] at hx
          dsimp only at hx
          rw [if_neg hpile] at hx
          exact (Except.ok.inj hx).symm
        have hagain : scrubValue key x = .ok x := by
          have hnone' : entered key x = none := by
            unfold entered
            rw [if_neg hpile, if_neg hkey, if_pos ⟨hmetrics.1, by rw [hx']; rfl⟩]
          unfold scrubValue
          rw [hnone', hx']
          exact if_neg hpile
        refine ⟨fun _ => ⟨fun hmem => absurd hmem hpile, fun heq => absurd heq hkey,
          fun node hnode => ?_⟩, fun _ => hagain⟩
        rw [hnone] at hnode
        cases hnode
      -- Anything else is entered as it is, before and after.
      · have hentered : entered key value = some value := by
          unfold entered
          rw [if_neg hpile, if_neg hkey, if_neg hmetrics]
        rw [scrubValue_of_entered hentered] at hx
        have hentered' : entered key x = some x := by
          unfold entered
          rw [if_neg hpile, if_neg hkey, if_neg]
          rintro ⟨hname, hsome⟩
          refine hmetrics ⟨hname, ?_⟩
          by_contra hnot
          have hnone := scrub_fields?_eq_none (Option.not_isSome_iff_eq_none.mp hnot) hx
          rw [hnone] at hsome
          cases hsome
        rw [scrubValue_of_entered hentered', hinside _ hentered x hx]
        refine ⟨fun h => ⟨fun hmem => absurd hmem hpile, fun heq => absurd heq hkey,
          fun node hnode => ?_⟩, fun h => h.inside _ hentered⟩
        rw [hentered] at hnode
        cases hnode
        exact h

/-- The mask of members, masked once more. -/
theorem scrubMembers_twice_iff {fields outs : Fields} (houts : scrubMembers fields = .ok outs)
    (hmember : ∀ key value, (key, value) ∈ fields → ∀ x, scrubValue key value = .ok x →
      (scrubValue key x = .ok x ↔ SettledMember key value)) :
    scrubMembers outs = .ok outs ↔ Settled (.obj fields) := by
  rw [settled_obj_iff]
  -- The induction is on the members. A member that is dropped is not in the result, so it says
  -- nothing.
  induction fields generalizing outs with
  | nil =>
      rw [scrubMembers] at houts
      cases houts
      exact ⟨fun _ _ _ hmem => (by cases hmem), fun _ => scrubMembers.eq_1⟩
  | cons m rest ih =>
      rcases m with ⟨key, value⟩
      have ihrest : ∀ {outs}, scrubMembers rest = .ok outs → (scrubMembers outs = .ok outs ↔ _) :=
        fun h => ih h fun k v hmem => hmember k v (.tail _ hmem)
      rcases scrubMembers_cons_eq_ok.mp houts with
        ⟨hdropped, hrest⟩ | ⟨hkept, x, restOuts, hx, hrest, rfl⟩
      · rw [ihrest hrest]
        refine ⟨fun h k v hmem hk => ?_, fun h k v hmem => h k v (.tail _ hmem)⟩
        rcases List.mem_cons.mp hmem with heq | hmem
        · cases heq
          rw [hdropped] at hk
          cases hk
        · exact h k v hmem hk
      -- A member that is kept is kept again.
      · have hsplit : scrubMembers ((key, x) :: restOuts) = .ok ((key, x) :: restOuts) ↔
            scrubValue key x = .ok x ∧ scrubMembers restOuts = .ok restOuts := by
          rw [scrubMembers_cons_eq_ok]
          constructor
          · rintro (⟨hdropped, -⟩ | ⟨-, y, restOuts', hy, hrest', heq⟩)
            · rw [hkept] at hdropped
              cases hdropped
            · cases heq
              exact ⟨hy, hrest'⟩
          · exact fun h => .inr ⟨hkept, x, restOuts, h.1, h.2, rfl⟩
        rw [hsplit, hmember key value (.head _) x hx, ihrest hrest]
        constructor
        · rintro ⟨hsettled, hothers⟩ k v hmem hk
          rcases List.mem_cons.mp hmem with heq | hmem
          · cases heq
            exact hsettled
          · exact hothers k v hmem hk
        · exact fun h => ⟨h key value (.head _) hkept, fun k v hmem => h k v (.tail _ hmem)⟩

/-- The mask of a mask: nothing changes exactly where the value is settled. -/
theorem scrub_twice_iff (node : Json) :
    ∀ out, scrub node = .ok out → (scrub out = .ok out ↔ Settled node) := by
  induction node using scrub_induction with
  | hscalar node hscalar =>
      intro out hout
      rw [scrub_scalar hscalar] at hout
      cases hout
      exact ⟨fun _ => settled_scalar hscalar, fun _ => scrub_scalar hscalar⟩
  | hlist items ih =>
      intro out hout
      rcases scrub_list_eq_ok.mp hout with ⟨outs, houts, rfl⟩
      rw [settled_list_iff, ← Except.forall_mapM_iff houts ih, ← Except.mapM_self_iff,
        scrub_list_eq_ok]
      exact ⟨fun ⟨outs', houts', heq⟩ => by cases heq; exact houts', fun h => ⟨outs, h, rfl⟩⟩
  | hobj fields ih =>
      intro out hout
      rcases scrub_obj_eq_ok.mp hout with ⟨outs, houts, rfl⟩
      have hiff := scrubMembers_twice_iff houts fun key value hmem x hx =>
        scrubValue_twice_iff hx (ih key value hmem)
      rw [← hiff, scrub_obj_eq_ok]
      exact ⟨fun ⟨outs', houts', heq⟩ => by cases heq; exact houts', fun h => ⟨outs, h, rfl⟩⟩

end Twice

/-!
### Publishing a state twice

The same of the whole record that is sent, with its actions and the marks of a combat that
has ended.
-/

section Republished

theorem lookupL_stamp {key : String} (hdto : key ≠ "dto_version") (hmask : key ≠ "mask_version")
    (fields : Fields) :
    Dict.lookupL (.text key) (stamp fields) = Dict.lookupL (.text key) fields := by
  have hne : ∀ {name : String}, key ≠ name → PyStr.text key ≠ .text name :=
    fun hne heq => hne (PyStr.text.inj heq)
  rw [stamp, setMember, setMember, Dict.lookupL_setL_ne _ _ _ _ (hne hmask),
    Dict.lookupL_setL_ne _ _ _ _ (hne hdto)]

theorem isTrueField_stamp {key : String} (hdto : key ≠ "dto_version") (hmask : key ≠ "mask_version")
    (fields : Fields) : isTrueField (stamp fields) key = isTrueField fields key := by
  rw [isTrueField, isTrueField, getField, getField, lookupL_stamp hdto hmask]

theorem isTrueField_closeTerminal {key : String} (hkey : key ≠ "legal_actions") (fields : Fields) :
    isTrueField (closeTerminal fields) key = isTrueField fields key := by
  have hset : isTrueField (setMember "legal_actions" (.list []) fields) key =
      isTrueField fields key := by
    rw [isTrueField, isTrueField, getField, getField, setMember,
      Dict.lookupL_setL_ne _ _ _ _ fun heq => hkey (PyStr.text.inj heq)]
  unfold closeTerminal
  split
  · exact hset
  · split
    · exact hset
    · rfl

/-- A state that ends the combat or the run has no actions. -/
def endsGame (fields : Fields) : Bool :=
  isTrueField fields "terminal" || isTrueField fields "run_terminal"

/-- What a state that has ended says of its actions. -/
theorem lookupL_closeTerminal (fields : Fields) :
    Dict.lookupL (.text "legal_actions") (closeTerminal fields) =
      if endsGame fields ∧ (isTrueField fields "terminal" = true ∨
          (Dict.lookupL (.text "legal_actions") fields).isSome = true) then some (.list [])
      else Dict.lookupL (.text "legal_actions") fields := by
  unfold closeTerminal endsGame
  by_cases hcombat : isTrueField fields "terminal" = true
  · rw [if_pos hcombat, setMember, Dict.lookupL_setL_self]
    simp [hcombat]
  · rw [if_neg hcombat]
    by_cases hrun : isTrueField fields "run_terminal" = true ∧
        (Dict.lookupL (.text "legal_actions") fields).isSome = true
    · rw [if_pos hrun, setMember, Dict.lookupL_setL_self]
      simp [hrun]
    · rw [if_neg hrun]
      simp [hcombat]
      tauto

/-- Stamps and the actions of a terminal state are set once. -/
theorem stamp_closeTerminal_twice (masked : Fields) :
    stamp (closeTerminal (stamp (closeTerminal masked))) = stamp (closeTerminal masked) := by
  -- Stamping writes the two versions, and writes the same ones again.
  have hstamp : ∀ fields : Fields, stamp (stamp fields) = stamp fields := by
    intro fields
    have hdto : setMember "dto_version" (.str (.text dtoVersion)) (stamp fields) =
      stamp fields := by
      refine Dict.setL_of_lookupL ?_
      rw [stamp, setMember, Dict.lookupL_setL_ne _ _ _ _ (by decide), setMember,
        Dict.lookupL_setL_self]
    have hmask : setMember "mask_version" (.str (.text maskVersion)) (stamp fields) =
        stamp fields := Dict.setL_of_lookupL (Dict.lookupL_setL_self _ _ _)
    rw [stamp, hdto, hmask]
  -- Closing a terminal state empties its actions, which are empty then already.
  have hclosed : closeTerminal (stamp (closeTerminal masked)) = stamp (closeTerminal masked) := by
    have hlookup := lookupL_closeTerminal masked
    have hactions := lookupL_stamp (by decide : "legal_actions" ≠ "dto_version") (by decide)
      (closeTerminal masked)
    -- Neither of the two flags is touched by closing and stamping.
    have hcombat : isTrueField (stamp (closeTerminal masked)) "terminal" =
        isTrueField masked "terminal" := by
      rw [isTrueField_stamp (by decide) (by decide), isTrueField_closeTerminal (by decide)]
    have hrun : isTrueField (stamp (closeTerminal masked)) "run_terminal" =
        isTrueField masked "run_terminal" := by
      rw [isTrueField_stamp (by decide) (by decide), isTrueField_closeTerminal (by decide)]
    conv_lhs => rw [closeTerminal, hcombat, hrun, hactions]
    split
    · rename_i hterminal
      refine Dict.setL_of_lookupL ?_
      rw [hactions, hlookup, if_pos ⟨by simp [endsGame, hterminal], .inl hterminal⟩]
    · split
      · rename_i hnot hterminal
        refine Dict.setL_of_lookupL ?_
        have hsome : (Dict.lookupL (.text "legal_actions") masked).isSome = true := by
          have hsome := hterminal.2
          rw [hlookup] at hsome
          split at hsome
          · rename_i h
            rcases h.2 with hcombat | hsome
            · exact absurd hcombat hnot
            · exact hsome
          · exact hsome
        rw [hactions, hlookup, if_pos ⟨by simp [endsGame, hterminal.1], .inr hsome⟩]
      · rfl
  rw [hclosed, hstamp]

/-- A published state is published again as it is exactly where it was settled. -/
theorem buildMaskedEmulatorDto_twice_iff {rawState : Fields} {extra : Option Fields} {out : Fields}
    (hout : buildMaskedEmulatorDto rawState extra = .ok out) :
    buildMaskedEmulatorDto out none = .ok out ↔ Settled (.obj (published rawState extra)) := by
  rcases buildMaskedEmulatorDto_eq_ok.mp hout with ⟨⟨masked, hmasked⟩, ⟨maskedExtra, hextra⟩,
    hopen, hscrub⟩
  -- The result is masked, closed and stamped, and each of these does nothing more the second
  -- time.
  have hupdate := scrubMembers_updateFields hextra hmasked
  have hstamped : out = stamp (closeTerminal (updateFields masked maskedExtra)) := by
    have hagain := scrubMembers_stamp (scrubMembers_closeTerminal hupdate)
    rw [published] at hscrub
    rw [hscrub] at hagain
    exact Except.ok.inj hagain
  have hpublished : published out none = out := by
    rw [published, Option.getD_none]
    change stamp (closeTerminal out) = out
    rw [hstamped, stamp_closeTerminal_twice]
  -- Whether both flags are set is the same before and after.
  have hflags : isTwiceTerminal out none ↔ isTwiceTerminal rawState extra := by
    unfold isTwiceTerminal
    rw [Option.getD_none]
    change (isTrueField out "terminal" = true ∧ isTrueField out "run_terminal" = true) ↔ _
    rw [hstamped, isTrueField_stamp (by decide) (by decide),
      isTrueField_stamp (by decide) (by decide), isTrueField_closeTerminal (by decide),
      isTrueField_closeTerminal (by decide), isTrueField_scrubMembers isPlainKey_terminal hupdate,
      isTrueField_scrubMembers isPlainKey_run_terminal hupdate]
  -- So masking again comes down to scrubbing again.
  rw [buildMaskedEmulatorDto_eq_ok, hpublished, hflags,
    ← scrub_twice_iff (.obj (published rawState extra)) (.obj out)
      (scrub_obj_eq_ok.mpr ⟨out, hscrub, rfl⟩), scrub_obj_eq_ok]
  constructor
  · exact fun h => ⟨out, h.2.2.2, rfl⟩
  · rintro ⟨out', hout', heq⟩
    cases heq
    exact ⟨⟨_, hout'⟩, ⟨[], scrubMembers.eq_1⟩, hopen, hout'⟩

/-- An action without its id. -/
def idless (action : Fields) : Fields := action.eraseP fun m => m.1 = .text "action_id"

theorem isPlainKey_action_id : IsPlainKey "action_id" := isPlainKey_of_mem (by simp [plainKeys])

/-- A text as the id settles nothing and unsettles nothing. -/
theorem settled_setMember_id {action : Fields} (s : PyStr) :
    Settled (.obj (setMember "action_id" (.str s) action)) ↔ Settled (.obj (idless action)) := by
  -- A text under the id's name is settled.
  have hid : SettledMember (.text "action_id") (.str s) := by
    refine ⟨fun hmem => absurd hmem isPlainKey_action_id.notPile, fun _ => ?_, fun node hnode => ?_⟩
    · exact absurd ‹_› isPlainKey_action_id.notPending
    · rw [isPlainKey_action_id.entered_eq] at hnode
      cases hnode
      exact settled_scalar rfl
  rw [settled_obj_iff, settled_obj_iff]
  unfold setMember idless
  -- The induction is on the members up to the id.
  induction action with
  | nil =>
      refine ⟨fun _ _ _ hmem => (nomatch hmem), fun _ key value hmem _ => ?_⟩
      cases List.mem_singleton.mp hmem
      exact hid
  | cons m rest ih =>
      rcases m with ⟨k, v⟩
      by_cases hk : k = .text "action_id"
      · subst hk
        rw [Dict.setL_cons_self, List.eraseP_cons_of_pos (by simp)]
        refine ⟨fun h key value hmem => h key value (.tail _ hmem),
          fun h key value hmem hkept => ?_⟩
        rcases List.mem_cons.mp hmem with heq | hmem
        · cases heq
          exact hid
        · exact h key value hmem hkept
      · rw [Dict.setL_cons_ne hk, List.eraseP_cons_of_neg (by simpa using hk)]
        have hcons : ∀ others : Fields, (∀ key value, (key, value) ∈ (k, v) :: others →
            isKept key = true → SettledMember key value) ↔
            (isKept k = true → SettledMember k v) ∧ ∀ key value, (key, value) ∈ others →
              isKept key = true → SettledMember key value := by
          intro others
          constructor
          · exact fun h => ⟨h k v (.head _), fun key value hmem => h key value (.tail _ hmem)⟩
          · rintro ⟨hhead, hothers⟩ key value hmem
            rcases List.mem_cons.mp hmem with heq | hmem
            · cases heq
              exact hhead
            · exact hothers key value hmem
        rw [hcons, hcons]
        exact and_congr_right fun _ => ih

/-- The mask of a published action, and publishing the action again. -/
theorem maskLegalAction_twice {action masked : Fields} (h : maskLegalAction action = .ok masked) :
    (scrubMembers masked = .ok masked ↔ Settled (.obj (idless action))) ∧
      (maskLegalAction masked = .ok masked ↔ scrubMembers masked = .ok masked) := by
  rcases maskLegalAction_eq_ok.mp h with ⟨scrubbed, hscrubbed, rfl⟩
  have hsettled : ∀ {fields outs : Fields}, scrubMembers fields = .ok outs →
      (scrubMembers outs = .ok outs ↔ Settled (.obj fields)) := by
    intro fields outs houts
    rw [← scrub_twice_iff (.obj fields) (.obj outs) (scrub_obj_eq_ok.mpr ⟨outs, houts, rfl⟩),
      scrub_obj_eq_ok]
    exact ⟨fun h => ⟨outs, h, rfl⟩, fun ⟨outs', houts', heq⟩ => by cases heq; exact houts'⟩
  rcases lookupL_scrubMembers isPlainKey_action_id.kept hscrubbed with
    ⟨hnone, hnone'⟩ | ⟨v, x, hv, hx, -⟩
  · -- Without an id the action is published as its mask.
    have hself : idAsText scrubbed = scrubbed := by
      rw [idAsText, hnone']
    have hidless : idless action = action := by
      refine List.eraseP_of_forall_not fun m hm => ?_
      have hne : m.1 ≠ .text "action_id" := fun heq =>
        Dict.lookupL_eq_none.mp hnone (heq ▸ List.mem_map_of_mem hm)
      simpa using hne
    rw [hself, hidless]
    refine ⟨hsettled hscrubbed, ?_⟩
    rw [maskLegalAction_eq_ok]
    constructor
    · rintro ⟨again, hagain, heq⟩
      have hnone'' : Dict.lookupL (.text "action_id") again = none := by
        rcases lookupL_scrubMembers isPlainKey_action_id.kept hagain with ⟨-, hnone⟩ | ⟨v, -, hv, -⟩
        · exact hnone
        · rw [hnone'] at hv
          cases hv
      rw [idAsText, hnone''] at heq
      exact heq ▸ hagain
    · exact fun hagain => ⟨scrubbed, hagain, hself⟩
  · have htext : idAsText scrubbed = setMember "action_id" (.str (pyStr x)) scrubbed := by
      rw [idAsText, hx]
    have hmask := scrubMembers_setMember isPlainKey_action_id (scrub_text (pyStr x)) hscrubbed
    rw [htext]
    refine ⟨(hsettled hmask).trans (settled_setMember_id _), ?_⟩
    -- The id is a text, and stays one.
    have hid : Dict.lookupL (.text "action_id")
        (setMember "action_id" (.str (pyStr x)) scrubbed) = some (.str (pyStr x)) :=
      Dict.lookupL_setL_self _ _ _
    rw [maskLegalAction_eq_ok]
    have hagain : ∀ again, scrubMembers (setMember "action_id" (.str (pyStr x)) scrubbed) =
        .ok again → idAsText again = again := by
      intro again hagain
      rcases lookupL_scrubMembers isPlainKey_action_id.kept hagain with ⟨hnone, -⟩ |
        ⟨w, y, hw, hy, hwy⟩
      · rw [hid] at hnone
        cases hnone
      · rw [hid] at hw
        cases hw
        rw [isPlainKey_action_id.scrubValue_eq, scrub_text] at hwy
        cases hwy
        rw [idAsText, hy]
        exact Dict.setL_of_lookupL hy
    constructor
    · rintro ⟨again, hscrub, heq⟩
      rw [hagain again hscrub] at heq
      exact heq ▸ hscrub
    · exact fun hscrub => ⟨_, hscrub, hagain _ hscrub⟩

/-- Published actions are published again as they are exactly where they were settled. -/
theorem maskLegalActions_twice_iff {actions masked : List Fields}
    (h : maskLegalActions actions = .ok masked) :
    maskLegalActions masked = .ok masked ↔ ∀ action ∈ actions, Settled (.obj (idless action)) := by
  unfold maskLegalActions at h ⊢
  rw [Except.mapM_self_iff]
  exact Except.forall_mapM_iff h fun action _ masked hmasked =>
    (maskLegalAction_twice hmasked).2.trans (maskLegalAction_twice hmasked).1

theorem lookupL_updateFields_of_not_mem {key : PyStr} {extra : Fields}
    (h : key ∉ extra.map Prod.fst) (fields : Fields) :
    Dict.lookupL key (updateFields fields extra) = Dict.lookupL key fields := by
  induction extra generalizing fields with
  | nil => rfl
  | cons m rest ih =>
      rw [List.map_cons, List.mem_cons, not_or] at h
      exact (ih h.2 _).trans (Dict.lookupL_setL_ne _ _ _ _ h.1)

theorem lookupL_updateFields_of_mem {key : PyStr} {value : Json} {extra : Fields}
    (hnodup : (extra.map Prod.fst).Nodup) (h : (key, value) ∈ extra) (fields : Fields) :
    Dict.lookupL key (updateFields fields extra) = some value := by
  induction extra generalizing fields with
  | nil => cases h
  | cons m rest ih =>
      rw [List.map_cons, List.nodup_cons] at hnodup
      rcases List.mem_cons.mp h with rfl | h
      · exact (lookupL_updateFields_of_not_mem hnodup.1 _).trans (Dict.lookupL_setL_self _ _ _)
      · exact ih hnodup.2 h _

/-- The actions that are published with a state: those that were published, or
    none where the game is over. -/
theorem getField_legal_actions_iff {rawState out : Fields} {extra : Dict PyStr Json}
    {actions masked : List Fields} (hmasked : maskLegalActions actions = .ok masked)
    (hout : buildMaskedEmulatorDto rawState
      (some (extra.set (.text "legal_actions") (.list (masked.map .obj))).entries) = .ok out) :
    getField out "legal_actions" = .list (masked.map .obj) ↔
      if endsGame (updateFields rawState
          (extra.set (.text "legal_actions") (.list (masked.map .obj))).entries) then actions = []
      else ∀ action ∈ actions, Settled (.obj (idless action)) := by
  have hscrub := (buildMaskedEmulatorDto_eq_ok.mp hout).2.2.2
  rw [published, Option.getD_some] at hscrub
  have hlisted : Dict.lookupL (.text "legal_actions") (updateFields rawState
      (extra.set (.text "legal_actions") (.list (masked.map .obj))).entries) =
      some (.list (masked.map .obj)) :=
    lookupL_updateFields_of_mem (Dict.nodup _)
      ((Dict.mem_entries_iff _ _ _).mpr (Dict.get?_set_self _ _ _)) _
  generalize updateFields rawState
    (extra.set (.text "legal_actions") (.list (masked.map .obj))).entries =
      state at hlisted hscrub ⊢
  have hclosed := lookupL_closeTerminal state
  rw [hlisted, Option.isSome_some] at hclosed
  have hgiven : Dict.lookupL (.text "legal_actions") (stamp (closeTerminal state)) =
      if endsGame state then some (.list []) else some (.list (masked.map .obj)) := by
    rw [lookupL_stamp (by decide) (by decide), hclosed]
    simp
  rcases lookupL_scrubMembers isPlainKey_legal_actions.kept hscrub with
    ⟨hnone, -⟩ | ⟨v, x, hv, hx, hvx⟩
  · rw [hgiven] at hnone
    split at hnone <;> cases hnone
  rw [isPlainKey_legal_actions.scrubValue_eq] at hvx
  rw [getField, hx, Option.getD_some]
  rw [hgiven] at hv
  by_cases hends : endsGame state = true
  · rw [if_pos hends] at hv ⊢
    cases hv
    rw [scrub_list_nil] at hvx
    cases hvx
    -- No action is published, so none may have been listed.
    rw [Json.list.injEq, eq_comm, List.map_eq_nil_iff, ← List.length_eq_zero_iff,
      ← List.length_eq_zero_iff, Except.length_of_mapM hmasked]
  · rw [if_neg hends] at hv ⊢
    cases hv
    have hself : x = .list (masked.map .obj) ↔
        scrub (.list (masked.map .obj)) = .ok (.list (masked.map .obj)) := by
      rw [hvx, Except.ok.injEq]
    rw [hself, scrub_list_eq_ok]
    unfold maskLegalActions at hmasked
    rw [← Except.forall_mapM_iff hmasked fun action _ masked hmasked =>
      (maskLegalAction_twice hmasked).1]
    have hitems : ((masked.map Json.obj).mapM scrub = .ok (masked.map Json.obj)) ↔
        ∀ action ∈ masked, scrubMembers action = .ok action := by
      rw [Except.mapM_self_iff, List.forall_mem_map]
      refine forall₂_congr fun action _ => ?_
      rw [scrub_obj_eq_ok]
      refine ⟨?_, fun h => ⟨action, h, rfl⟩⟩
      rintro ⟨_, houts, heq⟩
      cases heq
      exact houts
    rw [← hitems]
    refine ⟨?_, fun h => ⟨_, h, rfl⟩⟩
    rintro ⟨_, houts, heq⟩
    cases heq
    exact houts

/-- Masking twice is masking once exactly where no pile that is come to holds a
    card twice and every pending choice is an object: of a value, of a state with
    its extra, of legal actions, and of legal actions published with a state. -/
theorem masking_twice_iff (node : Json) (rawState : Fields) (extra : Option Fields)
    (added : Dict PyStr Json) (actions : List Fields) :
    (∀ out, scrub node = .ok out → (scrub out = .ok out ↔ Settled node)) ∧
    (∀ out, buildMaskedEmulatorDto rawState extra = .ok out →
      (buildMaskedEmulatorDto out none = .ok out ↔ Settled (.obj (published rawState extra)))) ∧
    (∀ masked, maskLegalActions actions = .ok masked →
      (maskLegalActions masked = .ok masked ↔
        ∀ action ∈ actions, Settled (.obj (idless action)))) ∧
    ∀ masked out, maskLegalActions actions = .ok masked →
      buildMaskedEmulatorDto rawState
        (some (added.set (.text "legal_actions") (.list (masked.map .obj))).entries) = .ok out →
      (getField out "legal_actions" = .list (masked.map .obj) ↔
        if endsGame (updateFields rawState
            (added.set (.text "legal_actions") (.list (masked.map .obj))).entries) then actions = []
        else ∀ action ∈ actions, Settled (.obj (idless action))) :=
  ⟨fun _ => scrub_twice_iff node _, fun _ => buildMaskedEmulatorDto_twice_iff,
    fun _ => maskLegalActions_twice_iff, fun _ _ => getField_legal_actions_iff⟩

theorem multisetOf_strikes (n : Nat) (hn : n = 1 ∨ n = 2) :
    multisetOf (.list (List.replicate n plainStrike)) =
      .ok (.list [PublicCard.record ⟨.str (.text "STRIKE"), .null, .null, .null, .null, false, 0,
        .null, .null, none⟩ n]) := by
  rcases hn with rfl | rfl <;> decide +kernel

/-- One strike in the draw pile: the count of the first mask is that of the second. -/
theorem masking_twice_strike :
    buildMaskedEmulatorDto (stamp [member "drawPile" (.list [PublicCard.record
        ⟨.str (.text "STRIKE"), .null, .null, .null, .null, false, 0, .null, .null, none⟩ 1])])
        none =
      .ok (stamp [member "drawPile" (.list [PublicCard.record
        ⟨.str (.text "STRIKE"), .null, .null, .null, .null, false, 0, .null, .null,
          none⟩ 1])]) := by
  refine ((masking_twice_iff .null [member "drawPile" (.list [plainStrike])] none
    Dict.empty []).2.1 _
    (build_drawPile (multisetOf_strikes 1 (.inl rfl)))).mpr (settled_obj_iff.mpr ?_)
  have hstamps : published [member "drawPile" (.list [plainStrike])] none =
      [member "drawPile" (.list [plainStrike]), member "dto_version" (.str (.text dtoVersion)),
        member "mask_version" (.str (.text maskVersion))] := by
    decide +kernel
  rw [hstamps]
  have hstamp : ∀ key s, IsPlainKey key → SettledMember (.text key) (.str s) := by
    intro key s hkey
    refine ⟨fun hmem => absurd hmem hkey.notPile, fun heq => absurd heq hkey.notPending,
      fun node hnode => ?_⟩
    rw [hkey.entered_eq] at hnode
    cases hnode
    exact settled_scalar rfl
  intro key value hmem _
  simp only [member, List.mem_cons, Prod.mk.injEq, List.not_mem_nil, or_false] at hmem
  rcases hmem with ⟨rfl, rfl⟩ | ⟨rfl, rfl⟩ | ⟨rfl, rfl⟩
  · refine ⟨fun _ pile cards heq hread => ?_, fun heq => absurd heq (by decide),
      fun node hnode => ?_⟩
    · cases heq
      have hcards : readPile [plainStrike] =
        .ok [⟨.str (.text "STRIKE"), .null, .null, .null, .null,
          false, 0, .null, .null, none⟩] := by
        decide +kernel
      rw [hcards] at hread
      cases hread
      exact List.nodup_singleton _
    · cases hnode
  · exact hstamp _ _ isPlainKey_dto_version
  · exact hstamp _ _ isPlainKey_mask_version

/-- Two strikes in the draw pile: they are counted as two, and then as one. -/
theorem masking_twice_strikes :
    ¬ ∀ rawState extra out, buildMaskedEmulatorDto rawState extra = .ok out →
      buildMaskedEmulatorDto out none = .ok out := by
  intro htwice
  have hout := build_drawPile (multisetOf_strikes 2 (.inr rfl))
  have hsettled := (buildMaskedEmulatorDto_twice_iff hout).mp (htwice _ none _ hout)
  have hvisits : Visits (.obj (published [member "drawPile"
      (.list (List.replicate 2 plainStrike))] none)) (.text "drawPile")
      (.list (List.replicate 2 plainStrike)) := .member (.head _) (by decide +kernel)
  have hcards : readPile (List.replicate 2 plainStrike) = .ok (List.replicate 2
      ⟨.str (.text "STRIKE"), .null, .null, .null, .null, false, 0, .null, .null, none⟩) := by
    decide +kernel
  exact absurd (hsettled.piles _ _ _ (by decide) hvisits hcards) (by decide +kernel)

end Republished

end Api

end STS2RL
