import STS2RL.Api.Masking
import STS2RL.Core.JsonRewrite

/-!
# The Walk of the Mask

Which members of a value the mask comes to, and what a change at one of them does
to the result. Two kinds of members get a treatment of their own by name, piles
and diagnostics. A change at such a member is seen by no other part of the mask:
a card is published through scalars, a pending choice is normalized through the
kinds of its fields, and neither reads a member of these names.

So when two values differ at one such member, their results differ at most in
what is published for it (`scrub_rewrites`), every member the mask comes to in
one has its counterpart in the other (`Visits.of_rewrites`), and a member the
mask comes to can be changed so that exactly its published value changes
(`Visits.visible`).

## Main definitions

* `scrubValue`: What is published for a member.
* `Visits`: The mask comes to a member.
* `isSpecialKey`: The names with a treatment of their own.

## Theorems

* `scrub_induction`: Induction along the walk.
* `scrub_rewrites`: Results differ in what is published for the changed member.
* `Visits.of_rewrites`: Changed values are walked through alike.
* `Visits.visible`: What is published for a member is part of the result.
-/

namespace STS2RL

namespace Api

open STS2RL.Json

/-!
### Readers of a rewritten value

Every reader of the mask looks at members with names of its own and at nothing below them
that a rewriting can reach. So it reads the same of a value and of its rewriting, unless
it stumbles over both.
-/

section Readers

/-- The names with a treatment of their own. -/
def isSpecialKey (key : PyStr) : Bool := key ∈ multisetPileKeys ∨ isMetricsKey key

/-- A relation that changes members with a treatment of their own only. -/
def OnSpecialKeys (Φ : PyStr → Json → Json → Prop) : Prop :=
  ∀ key v w, Φ key v w → isSpecialKey key = true

variable {Φ : PyStr → Json → Json → Prop} {xs ys : Fields}

theorem OnSpecialKeys.flip (hΦ : OnSpecialKeys Φ) : OnSpecialKeys fun key v w => Φ key w v :=
  fun key v w h => hΦ key w v h

theorem getField_rewrites (hΦ : OnSpecialKeys Φ) (h : RewritesMembers Φ xs ys) (key : String)
    (hkey : isSpecialKey (.text key) = false) :
    getField xs key = getField ys key ∨ Rewrites Φ (getField xs key) (getField ys key) := by
  unfold getField
  rcases h.lookup (.text key) with heq | ⟨v, w, hv, hw, hspecial | hrewrites⟩
  · exact Or.inl (by rw [heq])
  · exact absurd (hΦ _ _ _ hspecial) (by simp [hkey])
  · exact Or.inr (by rw [hv, hw]; exact hrewrites)

theorem getField_sameOutside (hΦ : OnSpecialKeys Φ) (h : RewritesMembers Φ xs ys) (key : String)
    (hkey : isSpecialKey (.text key) = false) :
    SameOutside (getField xs key) (getField ys key) := by
  rcases getField_rewrites hΦ h key hkey with heq | hrewrites
  · exact heq ▸ .refl _
  · exact hrewrites.sameOutside

/-- A scalar is what it is. -/
theorem eq_of_sameOutside {v w : Json} (h : SameOutside v w) (hv : isScalar v = true) : v = w := by
  cases h with
  | refl v => rfl
  | list h => cases hv
  | obj h => cases hv

theorem truthy_eq_of_sameOutside {v w : Json} (h : SameOutside v w) : truthy v = truthy w := by
  cases h with
  | refl v => rfl
  | list h => simp only [truthy, h]
  | obj h => simp only [truthy, h]

theorem readUpgradeLevel_eq_of_sameOutside {v w : Json} (h : SameOutside v w) :
    readUpgradeLevel v = readUpgradeLevel w := by
  have htruthy := truthy_eq_of_sameOutside h
  unfold readUpgradeLevel
  cases h with
  | refl v => rfl
  | list h => rw [htruthy]; rfl
  | obj h => rw [htruthy]; rfl

theorem isScalar_of_identityPart {v : Json} (h : (identityPart v).isNone = false) :
    isScalar v = true := by
  cases v <;> first | rfl | cases h

/-- What a card that can be read was read from. -/
theorem readCard_eq_ok {entry : Fields} {card : PublicCard} :
    readCard entry = .ok card ↔
      ∃ upgradeLevel enchantment,
        readUpgradeLevel (getField entry "upgradeLevel") = .ok upgradeLevel ∧
        readEnchantment (getField entry "enchantment") = .ok enchantment ∧
        card = { id := getField entry "id"
                 type := getField entry "type"
                 rarity := getField entry "rarity"
                 cost := getField entry "cost"
                 targetType := getField entry "targetType"
                 upgraded := truthy (getField entry "upgraded")
                 upgradeLevel
                 tinkerTimeType := getField entry "tinkerTimeType"
                 tinkerTimeRider := getField entry "tinkerTimeRider"
                 enchantment } ∧
        ∀ part ∈ card.identityKey, isScalar part = true := by
  unfold readCard
  -- The three ways in which reading a card can raise, in order.
  constructor
  · intro h
    split at h
    · cases h
    · rename_i upgradeLevel hlevel
      split at h
      · cases h
      · rename_i enchantment henchantment
        dsimp only at h
        split at h
        · cases h
        · rename_i hhashed
          cases h
          refine ⟨upgradeLevel, enchantment, hlevel, henchantment, rfl, fun part hpart => ?_⟩
          refine isScalar_of_identityPart ?_
          have hpart' := List.find?_eq_none.mp hhashed part hpart
          cases hidentity : identityPart part with
          | none => simp [hidentity] at hpart'
          | some _ => rfl
  -- Conversely, with all parts read and hashable nothing raises.
  · rintro ⟨upgradeLevel, enchantment, hlevel, henchantment, rfl, hscalar⟩
    rw [hlevel, henchantment]
    dsimp only
    rw [List.find?_eq_none.mpr]
    intro part hpart
    have hpart' := hscalar part hpart
    cases part <;> first | (simp [identityPart]; done) | cases hpart'

/-- An enchantment is read alike. -/
theorem readEnchantment_rewrites (hΦ : OnSpecialKeys Φ) {v w : Json} (h : v = w ∨ Rewrites Φ v w)
    {enchantment : Option (Json × Json × Json)} (hread : readEnchantment v = .ok enchantment)
    (hscalar : ∀ id amount status, enchantment = some (id, amount, status) →
      isScalar id = true ∧ isScalar amount = true ∧ isScalar status = true) :
    readEnchantment w = .ok enchantment := by
  rcases h with rfl | h
  · exact hread
  · rcases h.inv with ⟨xs, ys, rfl, rfl, hmembers⟩ | ⟨before, x, y, after, rfl, rfl, -⟩
    · cases hread
      rcases hscalar _ _ _ rfl with ⟨hid, hamount, hstatus⟩
      have hsame : ∀ key, isSpecialKey (.text key) = false → isScalar (getField xs key) = true →
          getField ys key = getField xs key := fun key hkey hv =>
        (eq_of_sameOutside (getField_sameOutside hΦ hmembers key hkey) hv).symm
      unfold readEnchantment
      dsimp only
      rw [hsame "id" (by decide) hid, hsame "amount" (by decide) hamount,
        hsame "status" (by decide) hstatus]
    · unfold readEnchantment at hread
      cases before <;> cases hread

/-- A card is published through scalars, so a step inside of it is not seen. -/
theorem readCard_rewrites (hΦ : OnSpecialKeys Φ) (h : RewritesMembers Φ xs ys) {card : PublicCard}
    (hcard : readCard xs = .ok card) : readCard ys = .ok card := by
  rw [readCard_eq_ok] at hcard ⊢
  rcases hcard with ⟨upgradeLevel, enchantment, hlevel, henchantment, rfl, hscalar⟩
  have houtside : ∀ key, isSpecialKey (.text key) = false →
      SameOutside (getField xs key) (getField ys key) := fun key hkey =>
    getField_sameOutside hΦ h key hkey
  have hsame : ∀ key, isSpecialKey (.text key) = false → isScalar (getField xs key) = true →
      getField xs key = getField ys key := fun key hkey hv =>
    eq_of_sameOutside (houtside key hkey) hv
  simp only [PublicCard.identityKey, List.mem_cons, List.not_mem_nil, or_false, forall_eq_or_imp,
    forall_eq] at hscalar
  rcases hscalar with ⟨hid, htype, hrarity, hcost, htarget, hupgraded, hupgradeLevel, htinkerType,
    htinkerRider, henchantmentId, hamount, hstatus⟩
  refine ⟨upgradeLevel, enchantment, ?_, ?_, ?_, ?_⟩
  · rw [← readUpgradeLevel_eq_of_sameOutside (houtside "upgradeLevel" (by decide)), hlevel]
  · refine readEnchantment_rewrites hΦ (getField_rewrites hΦ h "enchantment" (by decide))
      henchantment ?_
    rintro enchantmentId amount status rfl
    exact ⟨henchantmentId, hamount, hstatus⟩
  · rw [hsame "id" (by decide) hid, hsame "type" (by decide) htype,
      hsame "rarity" (by decide) hrarity, hsame "cost" (by decide) hcost,
      hsame "targetType" (by decide) htarget, hsame "tinkerTimeType" (by decide) htinkerType,
      hsame "tinkerTimeRider" (by decide) htinkerRider,
      truthy_eq_of_sameOutside (houtside "upgraded" (by decide))]
  · simp only [PublicCard.identityKey, List.mem_cons, List.not_mem_nil, or_false,
      forall_eq_or_imp, forall_eq]
    exact ⟨hid, htype, hrarity, hcost, htarget, hupgraded, hupgradeLevel, htinkerType, htinkerRider,
      henchantmentId, hamount, hstatus⟩

/-- An entry of a pile after a step inside of it. -/
theorem countedEntry_rewrites (hΦ : OnSpecialKeys Φ) {v w : Json} (h : Rewrites Φ v w) :
    (countedEntry v = none ∧ countedEntry w = none) ∨
      ∃ fields fields', countedEntry v = some fields ∧ countedEntry w = some fields' ∧
        RewritesMembers Φ fields fields' := by
  rcases h.inv with ⟨fields, fields', rfl, rfl, hmembers⟩ | ⟨before, x, y, after, rfl, rfl, -⟩
  · have hid : SameOutside (getField fields "id") (getField fields' "id") :=
      getField_sameOutside hΦ hmembers "id" (by decide)
    unfold countedEntry
    by_cases hnull : getField fields "id" = .null
    · rw [hnull] at hid
      have hnull' := (eq_of_sameOutside hid rfl).symm
      exact Or.inl ⟨if_pos hnull, if_pos hnull'⟩
    · refine Or.inr ⟨fields, fields', if_neg hnull, if_neg fun hnull' => hnull ?_, hmembers⟩
      rw [hnull'] at hid
      exact (eq_of_sameOutside hid.symm rfl).symm
  · exact Or.inl ⟨rfl, rfl⟩

/-- A step inside of an entry of a pile is not seen. -/
theorem readPile_rewrites (hΦ : OnSpecialKeys Φ) {before after : List Json} {v w : Json}
    (h : Rewrites Φ v w) {cards : List PublicCard}
    (hread : readPile (before ++ v :: after) = .ok cards) :
    readPile (before ++ w :: after) = .ok cards := by
  unfold readPile at hread ⊢
  rw [List.filterMap_append, List.filterMap_cons, Except.mapM_append_eq_ok] at hread ⊢
  rcases hread with ⟨cs, ds, hcs, hds, rfl⟩
  refine ⟨cs, ds, hcs, ?_, rfl⟩
  rcases countedEntry_rewrites hΦ h with ⟨hv, hw⟩ | ⟨fields, fields', hv, hw, hmembers⟩
  · rw [hv] at hds
    rw [hw]
    exact hds
  · rw [hv, List.mapM_cons, Except.bind_eq_ok] at hds
    rcases hds with ⟨card, hcard, hrest⟩
    rw [hw, List.mapM_cons, readCard_rewrites hΦ hmembers hcard]
    exact hrest

theorem multisetOf_rewrites (hΦ : OnSpecialKeys Φ) {v w x : Json} (h : Rewrites Φ v w)
    (hread : multisetOf v = .ok x) : multisetOf w = .ok x := by
  rcases h.inv with ⟨xs, ys, rfl, rfl, -⟩ | ⟨before, y, z, after, rfl, rfl, hitem⟩
  · exact hread
  · unfold multisetOf at hread ⊢
    rcases (Except.map_eq_ok _ _ _).mp hread with ⟨cards, hcards, rfl⟩
    dsimp only
    rw [readPile_rewrites hΦ hitem hcards]
    rfl

end Readers

/-!
### The pending choice of a rewritten value

The normal form of a pending choice is built from texts and numbers only, so it is the
same of a rewriting.
-/

section PendingChoice

variable {Φ : PyStr → Json → Json → Prop} {xs ys : Fields}

/-- The list under a name after a step: the same, or with a step in one item. -/
theorem list?_rewrites {v w : Json} (h : v = w ∨ Rewrites Φ v w) :
    list? v = list? w ∨ ∃ before x y after, list? v = some (before ++ x :: after) ∧
      list? w = some (before ++ y :: after) ∧ Rewrites Φ x y := by
  rcases h with rfl | h
  · exact Or.inl rfl
  · rcases h.inv with ⟨fields, fields', rfl, rfl, -⟩ | ⟨before, x, y, after, rfl, rfl, hitem⟩
    · exact Or.inl rfl
    · exact Or.inr ⟨before, x, y, after, rfl, rfl, hitem⟩

theorem validToken_eq_of_sameOutside {v w : Json} (h : SameOutside v w) :
    validToken v = validToken w := by
  cases h <;> rfl

/-- The tokens of a list do not see a step inside of it. -/
theorem filterMap_validToken_rewrites {before after : List Json} {x y : Json}
    (h : Rewrites Φ x y) :
    (before ++ x :: after).filterMap validToken = (before ++ y :: after).filterMap validToken := by
  rw [List.filterMap_append, List.filterMap_append, List.filterMap_cons, List.filterMap_cons,
    validToken_eq_of_sameOutside h.sameOutside]

/-- So are the scalars that are published. -/
theorem publicScalars_rewrites (hΦ : OnSpecialKeys Φ) (h : RewritesMembers Φ xs ys) :
    publicScalars xs = publicScalars ys := by
  have hread : ∀ key, isSpecialKey (.text key) = false → ∀ read : Json → Option Json,
      (∀ items items', read (.list items) = read (.list items')) →
      (∀ fields fields', read (.obj fields) = read (.obj fields')) →
      read (getField xs key) = read (getField ys key) := fun key hkey read hlist hobj =>
    (getField_sameOutside hΦ h key hkey).congr read hlist hobj
  unfold publicScalars
  simp only [List.filterMap_cons, List.filterMap_nil]
  rw [hread "choiceType" (by decide) publicText (fun _ _ => rfl) fun _ _ => rfl,
    hread "scope" (by decide) publicText (fun _ _ => rfl) fun _ _ => rfl,
    hread "scenarioRestorable" (by decide) publicFlag (fun _ _ => rfl) fun _ _ => rfl,
    hread "minSelect" (by decide) publicCount (fun _ _ => rfl) fun _ _ => rfl,
    hread "maxSelect" (by decide) publicCount (fun _ _ => rfl) fun _ _ => rfl,
    hread "selectedCount" (by decide) publicCount (fun _ _ => rfl) fun _ _ => rfl]

theorem publicSelected_rewrites (hΦ : OnSpecialKeys Φ) (h : RewritesMembers Φ xs ys) :
    publicSelected xs = publicSelected ys := by
  unfold publicSelected
  rcases list?_rewrites (getField_rewrites hΦ h "selectedOptionIds" (by decide)) with
    heq | ⟨before, x, y, after, hx, hy, hitem⟩
  · rw [heq]
  · rw [hx, hy]
    simp only [Option.toList_some, List.map_cons, List.map_nil,
      filterMap_validToken_rewrites hitem]

/-- The meaning of a choice is read from scalars. -/
theorem normalizeChoiceSemantics_rewrites (hΦ : OnSpecialKeys Φ) {v w : Json}
    (h : v = w ∨ Rewrites Φ v w) : normalizeChoiceSemantics v = normalizeChoiceSemantics w := by
  rcases h with rfl | h
  · rfl
  · rcases h.inv with ⟨fields, fields', rfl, rfl, hmembers⟩ | ⟨before, x, y, after, rfl, rfl, -⟩
    · have henum : ∀ key allowed, isSpecialKey (.text key) = false →
          enumOrNone (getField fields key) allowed = enumOrNone (getField fields' key) allowed :=
        fun key allowed hkey => (getField_sameOutside hΦ hmembers key hkey).congr
          (enumOrNone · allowed) (fun _ _ => rfl) fun _ _ => rfl
      have hbool : ∀ key, isSpecialKey (.text key) = false →
          boolOrNone (getField fields key) = boolOrNone (getField fields' key) :=
        fun key hkey => (getField_sameOutside hΦ hmembers key hkey).congr boolOrNone
          (fun _ _ => rfl) fun _ _ => rfl
      have hversion : SameOutside (getField fields "version") (getField fields' "version") :=
        getField_sameOutside hΦ hmembers _ (by decide)
      have hoperation : SameOutside (getField fields "operation") (getField fields' "operation") :=
        getField_sameOutside hΦ hmembers _ (by decide)
      unfold normalizeChoiceSemantics
      dsimp only
      rw [henum "effect" _ (by decide), henum "sourceZone" _ (by decide),
        henum "destinationZone" _ (by decide), henum "modifier" _ (by decide),
        hbool "orderMatters" (by decide), hbool "replacementAllowed" (by decide)]
      generalize getField fields "version" = version at hversion ⊢
      generalize getField fields' "version" = version' at hversion ⊢
      generalize getField fields "operation" = operation at hoperation ⊢
      generalize getField fields' "operation" = operation' at hoperation ⊢
      cases hversion <;> cases hoperation <;> first | rfl | (cases version <;> rfl)
    · rfl

/-- The objects of a list after a step inside of it. -/
theorem filterMap_fields_rewrites (before after : List Json) {x y : Json} (h : Rewrites Φ x y) :
    (before ++ x :: after).filterMap Json.fields? = (before ++ y :: after).filterMap Json.fields? ∨
      ∃ pre fields fields' post,
        (before ++ x :: after).filterMap Json.fields? = pre ++ fields :: post ∧
        (before ++ y :: after).filterMap Json.fields? = pre ++ fields' :: post ∧
        RewritesMembers Φ fields fields' := by
  simp only [List.filterMap_append, List.filterMap_cons]
  rcases h.inv with ⟨fields, fields', rfl, rfl, hmembers⟩ | ⟨_, _, _, _, rfl, rfl, -⟩
  · exact Or.inr ⟨_, fields, fields', _, rfl, rfl, hmembers⟩
  · exact Or.inl rfl

theorem readTokens_rewrites {v w : Json} (h : v = w ∨ Rewrites Φ v w) :
    readTokens v = readTokens w := by
  unfold readTokens
  rcases list?_rewrites h with heq | ⟨before, x, y, after, hv, hw, hitem⟩
  · rw [heq]
  · rw [hv, hw, Option.map_some, Option.map_some, filterMap_validToken_rewrites hitem]
    simp

/-- And so are the tokens of an option. -/
theorem readOptionTokens_rewrites (hΦ : OnSpecialKeys Φ) {v w : Json} (h : v = w ∨ Rewrites Φ v w) :
    readOptionTokens v = readOptionTokens w := by
  unfold readOptionTokens
  rcases list?_rewrites h with heq | ⟨before, x, y, after, hv, hw, hitem⟩
  · rw [heq]
  · rw [hv, hw, Option.map_some, Option.map_some]
    rcases filterMap_fields_rewrites before after hitem with
      heq | ⟨pre, fields, fields', post, hl, hr, hmembers⟩
    · rw [heq]
      simp
    · have htoken := validToken_eq_of_sameOutside
        (getField_sameOutside hΦ hmembers "optionId" (by decide))
      rw [hl, hr]
      simp only [List.filterMap_append, List.filterMap_cons, htoken, List.length_append,
        List.length_cons]

/-- Whether the identities fit together is read from tokens and lengths. -/
theorem identityValid_rewrites (hΦ : OnSpecialKeys Φ) (h : RewritesMembers Φ xs ys) :
    identityValid xs = identityValid ys := by
  have hcount : nonnegativeIntOrNone (getField xs "selectedCount") =
      nonnegativeIntOrNone (getField ys "selectedCount") :=
    (getField_sameOutside hΦ h "selectedCount" (by decide)).congr _ (fun _ _ => rfl) fun _ _ => rfl
  have hselected := readTokens_rewrites (getField_rewrites hΦ h "selectedOptionIds" (by decide))
  have hoptions := readOptionTokens_rewrites hΦ (getField_rewrites hΦ h "options" (by decide))
  unfold identityValid
  rw [hcount, hselected, hoptions]

theorem publicSemantics_rewrites (hΦ : OnSpecialKeys Φ) (h : RewritesMembers Φ xs ys) :
    publicSemantics xs = publicSemantics ys := by
  unfold publicSemantics
  rw [identityValid_rewrites hΦ h, normalizeChoiceSemantics_rewrites hΦ
    (getField_rewrites hΦ h "choiceSemantics" (by decide))]

theorem publicSourceEffect_rewrites (hΦ : OnSpecialKeys Φ) (h : RewritesMembers Φ xs ys) :
    publicSourceEffect xs = publicSourceEffect ys := by
  have htoken := validToken_eq_of_sameOutside
    (getField_sameOutside hΦ h "sourceEffectId" (by decide))
  unfold publicSourceEffect safeSourceEffectId
  rw [publicSemantics_rewrites hΦ h, htoken]

/-- An option after a step inside of it. -/
theorem publicOption_rewrites (hΦ : OnSpecialKeys Φ) (h : RewritesMembers Φ xs ys) :
    publicOption xs = publicOption ys ∨ RewritesMembers Φ (publicOption xs) (publicOption ys) := by
  have htoken := validToken_eq_of_sameOutside (getField_sameOutside hΦ h "optionId" (by decide))
  unfold publicOption
  rw [htoken]
  split
  · exact Or.inr h
  · rcases h.place with ⟨before, key, v, w, after, rfl, rfl, hplace⟩
    simp only [List.filter_append, List.filter_cons]
    by_cases hkey : key = .text "optionId"
    · exact Or.inl (by simp [hkey])
    · refine Or.inr ?_
      simp only [ne_eq, hkey, not_false_eq_true, decide_true, if_true]
      exact .intro hplace

/-- The options of a choice after a step inside of it. -/
theorem publicOptions_rewrites (hΦ : OnSpecialKeys Φ) (h : RewritesMembers Φ xs ys) :
    publicOptions xs = publicOptions ys ∨ RewritesMembers Φ (publicOptions xs)
      (publicOptions ys) := by
  unfold publicOptions
  rcases list?_rewrites (getField_rewrites hΦ h "options" (by decide)) with
    heq | ⟨before, x, y, after, hx, hy, hitem⟩
  · exact Or.inl (by rw [heq])
  · rw [hx, hy]
    rcases filterMap_fields_rewrites before after hitem with
      heq | ⟨pre, fields, fields', post, hl, hr, hmembers⟩
    · exact Or.inl (by simp only [Option.toList_some, List.map_cons, List.map_nil, heq])
    · simp only [hl, hr, Option.toList_some, List.map_cons, List.map_nil, List.map_append]
      rcases publicOption_rewrites hΦ hmembers with heq | hoption
      · exact Or.inl (by rw [heq])
      · exact Or.inr ⟨[], _, _, _, [], rfl, rfl, Or.inr (.item hoption.rewrites)⟩

/-- A step inside of a pending choice is a step inside of an option, or not published. -/
theorem normalizePendingChoice_rewrites (hΦ : OnSpecialKeys Φ) {v w : Json} (h : Rewrites Φ v w) :
    normalizePendingChoice v = normalizePendingChoice w ∨
      Rewrites Φ (normalizePendingChoice v) (normalizePendingChoice w) := by
  rcases h.inv with ⟨fields, fields', rfl, rfl, hmembers⟩ | ⟨_, _, _, _, rfl, rfl, -⟩
  · unfold normalizePendingChoice
    dsimp only
    unfold publicPendingChoice
    rw [publicScalars_rewrites hΦ hmembers, publicSelected_rewrites hΦ hmembers,
      publicSemantics_rewrites hΦ hmembers, publicSourceEffect_rewrites hΦ hmembers]
    rcases publicOptions_rewrites hΦ hmembers with heq | hoptions
    · exact Or.inl (by rw [heq])
    · refine Or.inr (RewritesMembers.rewrites ?_)
      exact ((hoptions.append_left _).append_right _).append_right _
  · exact Or.inl rfl

/-- Flat members have no place for a step. -/
theorem not_rewritesMembers_of_flat (hΦ : OnSpecialKeys Φ) {keys : List String}
    (hkeys : ∀ key ∈ keys, isSpecialKey (.text key) = false) (hflat : FlatMembers keys xs)
    (h : RewritesMembers Φ xs ys) : False := by
  rcases h.place with ⟨before, key, v, w, after, rfl, rfl, hspecial | hrewrites⟩
  · rcases hflat (key, v) (by simp) with ⟨⟨name, hname, rfl⟩, -⟩
    exact absurd (hΦ _ _ _ hspecial) (by simp [hkeys name hname])
  · rcases hflat (key, v) (by simp) with ⟨-, hscalar⟩
    cases hrewrites <;> cases hscalar

/-- A step inside of a public option is a step inside of the option. -/
theorem exists_of_publicOption_rewrites (hΦ : OnSpecialKeys Φ)
    (h : RewritesMembers Φ (publicOption xs) ys) :
    ∃ xs', RewritesMembers Φ xs xs' ∧ publicOption xs' = ys := by
  have htoken : ∀ xs', RewritesMembers Φ xs xs' →
      validToken (getField xs "optionId") = validToken (getField xs' "optionId") := fun xs' h =>
    validToken_eq_of_sameOutside (getField_sameOutside hΦ h "optionId" (by decide))
  unfold publicOption at h
  by_cases hvalid : (validToken (getField xs "optionId")).isSome = true
  · rw [if_pos hvalid] at h
    refine ⟨ys, h, ?_⟩
    unfold publicOption
    rw [← htoken ys h, if_pos hvalid]
  · rw [if_neg hvalid] at h
    rcases h.place with ⟨before, key, v, w, after, hxs, rfl, hplace⟩
    -- The place of the step, among the members that were dropped.
    rcases List.filter_eq_append_iff.mp hxs with ⟨xs₁, xs₂, rfl, rfl, hxs₂⟩
    rcases List.filter_eq_cons_iff.mp hxs₂ with ⟨dropped, xs₃, rfl, hdropped, hkept, rfl⟩
    have hstep : RewritesMembers Φ (xs₁ ++ (dropped ++ (key, v) :: xs₃))
        (xs₁ ++ (dropped ++ (key, w) :: xs₃)) :=
      (RewritesMembers.intro hplace).append_left xs₁
    refine ⟨_, hstep, ?_⟩
    have hnone : dropped.filter (fun m => m.1 ≠ .text "optionId") = [] :=
      List.filter_eq_nil_iff.mpr hdropped
    unfold publicOption
    rw [← htoken _ hstep, if_neg hvalid, List.filter_append, List.filter_append, hnone,
      List.nil_append, List.filter_cons]
    rw [if_pos hkept]

/-- A member that is found splits the members, and another value there is found as well. -/
theorem exists_split_of_lookupL {key : PyStr} {v : Json} (h : Dict.lookupL key xs = some v) :
    ∃ before after, xs = before ++ (key, v) :: after ∧
      ∀ w, Dict.lookupL key (before ++ (key, w) :: after) = some w := by
  induction xs with
  | nil => cases h
  | cons m rest ih =>
      rcases m with ⟨key', v'⟩
      unfold Dict.lookupL at h
      by_cases hkey : key' = key
      · rw [if_pos hkey] at h
        cases h
        exact ⟨[], rest, by rw [hkey]; rfl, fun w => by simp⟩
      · rw [if_neg hkey] at h
        rcases ih h with ⟨before, after, rfl, hlookup⟩
        exact ⟨(key', v') :: before, after, rfl, fun w => by simp [Dict.lookupL, hkey, hlookup w]⟩

/-- A step inside of the public options is a step inside of the options. -/
theorem exists_of_publicOptions_rewrites (hΦ : OnSpecialKeys Φ)
    (h : RewritesMembers Φ (publicOptions xs) ys) :
    ∃ xs', RewritesMembers Φ xs xs' ∧ publicOptions xs' = ys := by
  unfold publicOptions at h
  cases hlist : list? (getField xs "options") with
  | none =>
      rw [hlist] at h
      rcases h.place with ⟨before, key, v, w, after, hnil, -, -⟩
      cases before <;> cases hnil
  | some options =>
      rw [hlist, Option.toList_some, List.map_singleton] at h
      rcases h.place with ⟨before, key, v, w, after, hone, rfl, hplace⟩
      rcases List.append_eq_singleton_iff.mp hone.symm with ⟨rfl, hcons⟩ | ⟨-, hcons⟩
      · rw [List.cons.injEq] at hcons
        rcases hcons with ⟨hmember, rfl⟩
        cases hmember
        rcases hplace with hspecial | hrewrites
        · exact absurd (hΦ _ _ _ hspecial) (by decide)
        · rcases hrewrites.inv with ⟨_, _, hobj, -, -⟩ | ⟨before, x, x', after, hl, rfl, hitem⟩
          · cases hobj
          · rw [Json.list.injEq] at hl
            -- The item is an option that is kept.
            rcases List.map_eq_append_iff.mp hl with ⟨kept₁, kept₂, hkept, rfl, hkept₂⟩
            rcases List.map_eq_cons_iff.mp hkept₂ with ⟨option, kept₃, rfl, rfl, rfl⟩
            rcases List.filterMap_eq_append_iff.mp hkept with
              ⟨options₁, options₂, rfl, rfl, hoptions⟩
            rcases List.filterMap_eq_cons_iff.mp hoptions with
              ⟨skipped, o, options₃, rfl, hskipped, ho, rfl⟩
            have hobj : o = .obj option := by
              cases o <;> cases ho
              rfl
            subst hobj
            rcases hitem.inv with ⟨_, option', heq, rfl, hmembers⟩ | ⟨_, _, _, _, heq, -, -⟩
            · cases heq
              rcases exists_of_publicOption_rewrites hΦ hmembers with ⟨raw, hraw, rfl⟩
              have hfield : Dict.lookupL (.text "options") xs =
                  some (.list (options₁ ++ (skipped ++ .obj option :: options₃))) := by
                unfold getField at hlist
                cases hlookup : Dict.lookupL (.text "options") xs with
                | none => rw [hlookup] at hlist; cases hlist
                | some value =>
                    rw [hlookup, Option.getD_some] at hlist
                    cases value <;> cases hlist
                    rfl
              rcases exists_split_of_lookupL hfield with ⟨before, after, rfl, hlookup⟩
              refine ⟨before ++ (.text "options",
                .list (options₁ ++ (skipped ++ .obj raw :: options₃))) :: after,
                .intro (Or.inr ?_), ?_⟩
              · rw [← List.append_assoc, ← List.append_assoc]
                exact .item hraw.rewrites
              · have hskip : skipped.filterMap Json.fields? = [] :=
                  List.filterMap_eq_nil_iff.mpr hskipped
                unfold publicOptions getField
                rw [hlookup]
                simp [list?, hskip, Json.fields?, member]
            · cases heq
      · cases hcons

/-- The identities that were selected have no place for a step. -/
theorem not_rewritesMembers_publicSelected (hΦ : OnSpecialKeys Φ)
    (h : RewritesMembers Φ (publicSelected xs) ys) : False := by
  unfold publicSelected at h
  rcases h.place with ⟨before, key, v, w, after, heq, -, hplace⟩
  have hmem : (key, v) ∈ (list? (getField xs "selectedOptionIds")).toList.map fun selected =>
      member "selectedOptionIds"
        (.list ((selected.filterMap validToken).map fun s => .str (.text s))) := by
    rw [heq]
    simp
  rcases List.mem_map.mp hmem with ⟨selected, -, hmember⟩
  cases hmember
  rcases hplace with hspecial | hrewrites
  · exact absurd (hΦ _ _ _ hspecial) (by decide)
  · rcases hrewrites.inv with ⟨_, _, hobj, -, -⟩ | ⟨before, x, y, after, hl, -, hitem⟩
    · cases hobj
    · rw [Json.list.injEq] at hl
      have hx : x ∈ (selected.filterMap validToken).map fun s => Json.str (.text s) := by
        rw [hl]
        simp
      rcases List.mem_map.mp hx with ⟨s, -, rfl⟩
      cases hitem

/-- A step inside of a normalized choice is a step inside of the choice. -/
theorem exists_of_normalizePendingChoice_rewrites (hΦ : OnSpecialKeys Φ) {v b : Json}
    (h : Rewrites Φ (normalizePendingChoice v) b) :
    ∃ w, Rewrites Φ v w ∧ normalizePendingChoice w = b := by
  cases v with
  | obj fields =>
      rcases h.inv with ⟨_, zs, hobj, rfl, hmembers⟩ | ⟨_, _, _, _, hlist, -, -⟩
      · cases hobj
        -- Every part of the normalized choice but the options is flat.
        rcases hmembers.append with ⟨zs₁, hinit, rfl⟩ | ⟨_, hsource, -⟩
        · rcases hinit.append with ⟨zs₂, hfront, rfl⟩ | ⟨_, hsemantics, -⟩
          · rcases hfront.append with ⟨_, hflat, -⟩ | ⟨zs₃, hoptions, rfl⟩
            · rcases hflat.append with ⟨_, hscalars, -⟩ | ⟨_, hselected, -⟩
              · exact (not_rewritesMembers_of_flat hΦ (by decide) (flatMembers_publicScalars _)
                  hscalars).elim
              · exact (not_rewritesMembers_publicSelected hΦ hselected).elim
            · rcases exists_of_publicOptions_rewrites hΦ hoptions with ⟨fields', hstep, rfl⟩
              refine ⟨.obj fields', hstep.rewrites, ?_⟩
              unfold normalizePendingChoice
              dsimp only
              unfold publicPendingChoice
              rw [publicScalars_rewrites hΦ hstep, publicSelected_rewrites hΦ hstep,
                publicSemantics_rewrites hΦ hstep, publicSourceEffect_rewrites hΦ hstep]
          · rcases hsemantics.place with ⟨before, key, v, w, after, hone, -, hplace⟩
            have hmem : (key, v) ∈ [member "choiceSemantics" (.obj (publicSemantics fields))] := by
              rw [hone]
              simp
            cases List.mem_singleton.mp hmem
            rcases hplace with hspecial | hrewrites
            · exact absurd (hΦ _ _ _ hspecial) (by decide)
            · rcases hrewrites.inv with ⟨_, _, heq, -, hinner⟩ | ⟨_, _, _, _, hlist, -, -⟩
              · cases heq
                exact (not_rewritesMembers_of_flat hΦ (by decide) (flatMembers_publicSemantics _)
                  hinner).elim
              · cases hlist
        · exact (not_rewritesMembers_of_flat hΦ (by decide) (flatMembers_publicSourceEffect _)
            hsource).elim
      · cases hlist
  | null | bool _ | int _ | float _ | str _ | list _ =>
      rcases h.inv with ⟨xs, zs, hobj, -, hmembers⟩ | ⟨_, _, _, _, hlist, -, -⟩
      · cases hobj
        rcases hmembers.place with ⟨before, key, v, w, after, hnil, -, -⟩
        cases before <;> cases hnil
      · cases hlist

end PendingChoice

/-!
### The walk

The function that walks through a state, member by member, with an induction of its own:
what is visited are the values that the walk enters.
-/

section Walk

/-- A name that is not dropped. -/
def isKept (key : PyStr) : Bool := decide (isForbiddenKey key = false ∧ key ∉ deleteKeys)

/-- The value that the mask goes on with for a member, if it does. -/
def entered (key : PyStr) (value : Json) : Option Json :=
  if key ∈ multisetPileKeys then none
  else if key = .text "pendingChoice" then some (normalizePendingChoice value)
  else if isMetricsKey key ∧ value.fields?.isSome then none
  else some value

/-- What is published for a member. -/
def scrubValue (key : PyStr) (value : Json) : Except PyException Json :=
  match entered key value with
  | some node => scrub node
  | none => if key ∈ multisetPileKeys then multisetOf value else .ok (.obj [])

/-- The mask comes to a member. -/
inductive Visits : Json → PyStr → Json → Prop where
  | member {fields : Fields} {key : PyStr} {value : Json} (hmem : (key, value) ∈ fields)
      (hkept : isKept key = true) : Visits (.obj fields) key value
  | inside {fields : Fields} {key : PyStr} {value node : Json} {k : PyStr} {v : Json}
      (hmem : (key, value) ∈ fields) (hkept : isKept key = true)
      (hentered : entered key value = some node) (h : Visits node k v) : Visits (.obj fields) k v
  | item {items : List Json} {node : Json} {k : PyStr} {v : Json} (hmem : node ∈ items)
      (h : Visits node k v) : Visits (.list items) k v

theorem scrubItems_eq_mapM (items : List Json) : scrubItems items = items.mapM scrub := by
  induction items with
  | nil =>
      rw [scrubItems]
      rfl
  | cons item rest ih =>
      rw [scrubItems, List.mapM_cons, ih]
      cases scrub item with
      | error exc => rfl
      | ok scrubbed => cases rest.mapM scrub <;> rfl

theorem scrub_list_eq_ok {items : List Json} {out : Json} :
    scrub (.list items) = .ok out ↔ ∃ outs, items.mapM scrub = .ok outs ∧ out = .list outs := by
  rw [scrub, scrubItems_eq_mapM, Except.map_eq_ok]
  exact exists_congr fun outs => and_congr_right fun _ => eq_comm

theorem scrub_obj_eq_ok {fields : Fields} {out : Json} :
    scrub (.obj fields) = .ok out ↔ ∃ outs, scrubMembers fields = .ok outs ∧ out = .obj outs := by
  rw [scrub, Except.map_eq_ok]
  exact exists_congr fun outs => and_congr_right fun _ => eq_comm

/-- The first member is dropped, or walked into before the rest. -/
theorem scrubMembers_cons {key : PyStr} {value : Json} {rest : Fields} :
    scrubMembers ((key, value) :: rest) =
      if isKept key then
        match scrubValue key value with
        | .error exc => .error exc
        | .ok scrubbed => (scrubMembers rest).map ((key, scrubbed) :: ·)
      else scrubMembers rest := by
  rw [scrubMembers]
  unfold isKept scrubValue entered
  by_cases hforbidden : isForbiddenKey key = true
  · simp [hforbidden]
  · by_cases hdeleted : key ∈ deleteKeys
    · simp [hforbidden, hdeleted]
    · have hkept : decide (isForbiddenKey key = false ∧ key ∉ deleteKeys) = true := by
        simp [hforbidden, hdeleted]
      rw [if_neg hforbidden, if_neg hdeleted, if_pos hkept]
      by_cases hpile : key ∈ multisetPileKeys
      · rewrite [if_pos hpile, if_pos hpile, if_pos hpile]
        rfl
      · by_cases hpending : key = .text "pendingChoice"
        · rewrite [if_neg hpile, if_neg hpile, if_pos hpending, if_pos hpending]
          rfl
        · by_cases hmetrics : isMetricsKey key = true ∧ value.fields?.isSome = true
          · simp only [if_neg hpile, if_neg hpending, if_pos hmetrics]
          · rewrite [if_neg hpile, if_neg hpile, if_neg hpending, if_neg hpending,
              if_neg hmetrics, if_neg hmetrics]
            rfl

/-- The walk through the members succeeds exactly when that through each does. -/
theorem scrubMembers_cons_eq_ok {key : PyStr} {value : Json} {rest outs : Fields} :
    scrubMembers ((key, value) :: rest) = .ok outs ↔
      (isKept key = false ∧ scrubMembers rest = .ok outs) ∨
        (isKept key = true ∧ ∃ x restOuts, scrubValue key value = .ok x ∧
          scrubMembers rest = .ok restOuts ∧ outs = (key, x) :: restOuts) := by
  rw [scrubMembers_cons]
  by_cases hkept : isKept key = true
  · rw [if_pos hkept]
    simp only [hkept, Bool.true_eq_false, false_and, true_and, false_or]
    cases scrubValue key value with
    | error exc => simp
    | ok x =>
        dsimp only
        rw [Except.map_eq_ok]
        constructor
        · rintro ⟨restOuts, hrest, rfl⟩
          exact ⟨x, restOuts, rfl, hrest, rfl⟩
        · rintro ⟨_, restOuts, heq, hrest, rfl⟩
          cases heq
          exact ⟨restOuts, hrest, rfl⟩
  · rw [if_neg hkept]
    simp [hkept]

/-- And so through two lists of members. -/
theorem scrubMembers_append_eq_ok {xs ys outs : Fields} :
    scrubMembers (xs ++ ys) = .ok outs ↔
      ∃ us vs, scrubMembers xs = .ok us ∧ scrubMembers ys = .ok vs ∧ outs = us ++ vs := by
  induction xs generalizing outs with
  | nil =>
      rw [scrubMembers]
      constructor
      · exact fun h => ⟨[], outs, rfl, h, rfl⟩
      · rintro ⟨us, vs, hus, hvs, rfl⟩
        cases hus
        exact hvs
  | cons m rest ih =>
      rcases m with ⟨key, value⟩
      rw [List.cons_append, scrubMembers_cons_eq_ok]
      simp only [ih, scrubMembers_cons_eq_ok]
      constructor
      · rintro (⟨hkept, us, vs, hus, hvs, rfl⟩ | ⟨hkept, x, _, hx, ⟨us, vs, hus, hvs, rfl⟩, rfl⟩)
        · exact ⟨us, vs, Or.inl ⟨hkept, hus⟩, hvs, rfl⟩
        · exact ⟨(key, x) :: us, vs, Or.inr ⟨hkept, x, us, hx, hus, rfl⟩, hvs, rfl⟩
      · rintro ⟨us, vs, ⟨hkept, hus⟩ | ⟨hkept, x, us', hx, hus', rfl⟩, hvs, rfl⟩
        · exact Or.inl ⟨hkept, us, vs, hus, hvs, rfl⟩
        · exact Or.inr ⟨hkept, x, us' ++ vs, hx, ⟨us', vs, hus', hvs, rfl⟩, rfl⟩

/-- A member is smaller than the object it is of. -/
theorem mem_pendingCount_lt {fields : Fields} {value : Json}
    (h : (.text "pendingChoice", value) ∈ fields) :
    pendingCount value < pendingCountMembers fields := by
  induction fields with
  | nil => cases h
  | cons m rest ih =>
      rcases m with ⟨k, v⟩
      simp only [pendingCountMembers]
      rcases List.mem_cons.mp h with heq | hmem
      · cases heq
        rw [if_pos rfl]
        omega
      · have hlt := ih hmem
        omega

theorem pendingCount_le_of_mem_items {items : List Json} {item : Json} (h : item ∈ items) :
    pendingCount item ≤ pendingCount (.list items) := by
  simp only [pendingCount]
  induction items with
  | nil => cases h
  | cons first rest ih =>
      simp only [pendingCountItems]
      rcases List.mem_cons.mp h with rfl | hmem
      · omega
      · have hle := ih hmem
        omega

/-- What the mask goes on with is smaller. -/
theorem entered_smaller {fields : Fields} {key : PyStr} {value node : Json}
    (hmem : (key, value) ∈ fields) (h : entered key value = some node) :
    Prod.Lex (· < ·) (· < ·) (pendingCount node, sizeOf node)
      (pendingCount (.obj fields), sizeOf (Json.obj fields)) := by
  have hsize : sizeOf value < sizeOf (Json.obj fields) := by
    have hlt := List.sizeOf_lt_of_mem hmem
    simp only [Prod.mk.sizeOf_spec] at hlt
    simp only [Json.obj.sizeOf_spec]
    omega
  unfold entered at h
  split at h
  · cases h
  · split at h
    · rename_i hpending
      cases h
      refine Prod.Lex.left _ _ ?_
      exact lt_of_le_of_lt (pendingCount_normalizePendingChoice value)
        (mem_pendingCount_lt (hpending ▸ hmem))
    · split at h
      · cases h
      · cases h
        exact lex_of_le (pendingCount_le_of_mem hmem) hsize

/-- Induction along the walk. -/
theorem scrub_induction {P : Json → Prop} (hscalar : ∀ node, isScalar node = true → P node)
    (hlist : ∀ items, (∀ item ∈ items, P item) → P (.list items))
    (hobj : ∀ fields, (∀ key value, (key, value) ∈ fields → ∀ node, entered key value = some node →
      P node) → P (.obj fields)) : ∀ node, P node := by
  have hwf : WellFounded fun a b : Json => Prod.Lex (· < ·) (· < ·) (pendingCount a, sizeOf a)
      (pendingCount b, sizeOf b) :=
    InvImage.wf (fun node : Json => (pendingCount node, sizeOf node))
      (Prod.lex (Nat.lt_wfRel) (Nat.lt_wfRel)).wf
  intro node
  induction node using hwf.induction with
  | _ node ih =>
      cases node with
      | obj fields =>
          exact hobj fields fun key value hmem node hentered =>
            ih node (entered_smaller hmem hentered)
      | list items =>
          refine hlist items fun item hmem => ih item ?_
          have hsize := List.sizeOf_lt_of_mem hmem
          exact lex_of_le (pendingCount_le_of_mem_items hmem)
            (by simp only [Json.list.sizeOf_spec]; omega)
      | null | bool _ | int _ | float _ | str _ => exact hscalar _ rfl

theorem scrubValue_of_entered {key : PyStr} {value node : Json}
    (h : entered key value = some node) : scrubValue key value = scrub node := by
  unfold scrubValue
  rw [h]

/-- A member that is come to is published, if anything is. -/
theorem Visits.scrubValue_ok {node : Json} {key : PyStr} {value : Json}
    (h : Visits node key value) : ∀ out, scrub node = .ok out →
    ∃ x, scrubValue key value = .ok x := by
  induction h with
  | member hmem hkept =>
      intro out hout
      rcases scrub_obj_eq_ok.mp hout with ⟨outs, houts, -⟩
      rcases List.append_of_mem hmem with ⟨before, after, rfl⟩
      rcases scrubMembers_append_eq_ok.mp houts with ⟨us, vs, -, hvs, -⟩
      rcases scrubMembers_cons_eq_ok.mp hvs with ⟨hdropped, -⟩ | ⟨-, x, rest, hx, -, -⟩
      · rw [hkept] at hdropped
        cases hdropped
      · exact ⟨x, hx⟩
  | inside hmem hkept hentered _ ih =>
      intro out hout
      rcases scrub_obj_eq_ok.mp hout with ⟨outs, houts, -⟩
      rcases List.append_of_mem hmem with ⟨before, after, rfl⟩
      rcases scrubMembers_append_eq_ok.mp houts with ⟨us, vs, -, hvs, -⟩
      rcases scrubMembers_cons_eq_ok.mp hvs with ⟨hdropped, -⟩ | ⟨-, x, rest, hx, -, -⟩
      · rw [hkept] at hdropped
        cases hdropped
      · rw [scrubValue_of_entered hentered] at hx
        exact ih x hx
  | item hmem _ ih =>
      intro out hout
      rcases scrub_list_eq_ok.mp hout with ⟨outs, houts, -⟩
      rcases Except.ok_of_mem_mapM scrub _ outs houts _ hmem with ⟨y, -, hy⟩
      exact ih y hy

end Walk

/-!
### Steps of a rewriting

A single change, somewhere in the state, is followed through the walk: either the walk
does not come there, or what it leaves there is the change's.
-/

section Steps

variable {Φ Ψ : PyStr → Json → Json → Prop}

/-- A member whose value has a step inside of it: the mask goes on with values
    that are equal or have a step inside, or publishes the same at once. -/
theorem entered_rewrites (hΦ : OnSpecialKeys Φ) (key : PyStr) {v w : Json} (h : Rewrites Φ v w) :
    (∃ node node', entered key v = some node ∧ entered key w = some node' ∧
        (node = node' ∨ Rewrites Φ node node')) ∨
      (entered key v = none ∧ entered key w = none ∧
        ∀ x, scrubValue key v = .ok x → scrubValue key w = .ok x) := by
  have hkind : v.fields?.isSome = w.fields?.isSome :=
    h.sameOutside.congr (fun value => value.fields?.isSome) (fun _ _ => rfl) fun _ _ => rfl
  unfold scrubValue entered
  rw [hkind]
  by_cases hpile : key ∈ multisetPileKeys
  · rw [if_pos hpile, if_pos hpile, if_pos hpile, if_pos hpile]
    exact Or.inr ⟨rfl, rfl, fun x => multisetOf_rewrites hΦ h⟩
  · by_cases hpending : key = .text "pendingChoice"
    · rw [if_neg hpile, if_neg hpile, if_pos hpending, if_pos hpending]
      exact Or.inl ⟨_, _, rfl, rfl, normalizePendingChoice_rewrites hΦ h⟩
    · by_cases hmetrics : isMetricsKey key = true ∧ w.fields?.isSome = true
      · rw [if_neg hpile, if_neg hpile, if_neg hpending, if_neg hpending, if_pos hmetrics,
          if_pos hmetrics, if_neg hpile, if_neg hpile]
        exact Or.inr ⟨rfl, rfl, fun x hx => hx⟩
      · rw [if_neg hpile, if_neg hpile, if_neg hpending, if_neg hpending, if_neg hmetrics,
          if_neg hmetrics]
        exact Or.inl ⟨v, w, rfl, rfl, Or.inr h⟩

/-- A step in what the mask goes on with comes from a step of the member. -/
theorem exists_of_entered_rewrites (hΦ : OnSpecialKeys Φ) {key : PyStr} {v node node' : Json}
    (hentered : entered key v = some node) (h : Rewrites Φ node node') :
    ∃ w, Rewrites Φ v w ∧ entered key w = some node' := by
  unfold entered at hentered ⊢
  by_cases hpile : key ∈ multisetPileKeys
  · rw [if_pos hpile] at hentered
    cases hentered
  · rw [if_neg hpile] at hentered
    by_cases hpending : key = .text "pendingChoice"
    · rw [if_pos hpending] at hentered
      cases hentered
      rcases exists_of_normalizePendingChoice_rewrites hΦ h with ⟨w, hw, rfl⟩
      exact ⟨w, hw, by rw [if_neg hpile, if_pos hpending]⟩
    · rw [if_neg hpending] at hentered
      split at hentered
      · cases hentered
      · rename_i hmetrics
        cases hentered
        have hkind : v.fields?.isSome = node'.fields?.isSome :=
          h.sameOutside.congr (fun value => value.fields?.isSome) (fun _ _ => rfl) fun _ _ => rfl
        exact ⟨node', h, by rw [if_neg hpile, if_neg hpending, ← hkind, if_neg hmetrics]⟩

/-- Results differ at most in what is published for the changed member. -/
theorem scrub_rewrites (hΦ : OnSpecialKeys Φ) : ∀ a b out,
    (∀ key v w x, Visits a key v → Φ key v w → scrubValue key v = .ok x →
      ∃ y, scrubValue key w = .ok y ∧ Ψ key x y) →
    Rewrites Φ a b → scrub a = .ok out →
    ∃ out', scrub b = .ok out' ∧ (out = out' ∨ Rewrites Ψ out out') := by
  intro a
  -- The induction is along the walk of the mask. The change is at a member or inside one, and
  -- what is around it is published as before.
  induction a using scrub_induction with
  | hscalar node hscalar =>
      intro b out _ h
      cases h <;> cases hscalar
  | hlist items ih =>
      intro b out hplace h hout
      rcases h.inv with ⟨_, _, hobj, -, -⟩ | ⟨before, v, w, after, heq, rfl, hitem⟩
      · cases hobj
      -- One item changes, and the items around it stay.
      · cases heq
        rcases scrub_list_eq_ok.mp hout with ⟨outs, houts, rfl⟩
        rcases (Except.mapM_append_eq_ok _ _ _ _).mp houts with ⟨us, vs, hus, hvs, rfl⟩
        rw [List.mapM_cons, Except.bind_eq_ok] at hvs
        rcases hvs with ⟨x, hx, hrest⟩
        rw [Except.bind_eq_ok] at hrest
        rcases hrest with ⟨rest, hrest, heq⟩
        cases heq
        have hmem : v ∈ before ++ v :: after := by simp
        rcases ih v hmem w x (fun key v' w' x' hvisits =>
          hplace key v' w' x' (.item hmem hvisits)) hitem hx with ⟨y, hy, hxy⟩
        refine ⟨.list (us ++ y :: rest), scrub_list_eq_ok.mpr ⟨_, ?_, rfl⟩, ?_⟩
        · refine (Except.mapM_append_eq_ok _ _ _ _).mpr ⟨us, y :: rest, hus, ?_, rfl⟩
          rw [List.mapM_cons, hy, hrest]
          rfl
        · rcases hxy with rfl | hxy
          · exact Or.inl rfl
          · exact Or.inr (.item hxy)
  | hobj fields ih =>
      intro b out hplace h hout
      rcases h.inv with ⟨_, _, heq, rfl, hmembers⟩ | ⟨_, _, _, _, hlist, -, -⟩
      -- One member changes.
      · cases heq
        rcases hmembers.place with ⟨before, key, v, w, after, rfl, rfl, hstep⟩
        have hmem : (key, v) ∈ before ++ (key, v) :: after := by simp
        rcases scrub_obj_eq_ok.mp hout with ⟨outs, houts, rfl⟩
        rcases scrubMembers_append_eq_ok.mp houts with ⟨us, vs, hus, hvs, rfl⟩
        rcases scrubMembers_cons_eq_ok.mp hvs with ⟨hdropped, hvs⟩ |
          ⟨hkept, x, rest, hx, hrest, rfl⟩
        · -- The member is dropped with its change.
          refine ⟨.obj (us ++ vs), scrub_obj_eq_ok.mpr ⟨_, ?_, rfl⟩, Or.inl rfl⟩
          exact scrubMembers_append_eq_ok.mpr ⟨us, vs, hus,
            scrubMembers_cons_eq_ok.mpr (Or.inl ⟨hdropped, hvs⟩), rfl⟩
        -- What is published for it: the treatment of its name, or what the walk makes of what is
        -- inside.
        · have hvalue : ∃ y, scrubValue key w = .ok y ∧ (x = y ∨ Ψ key x y ∨ Rewrites Ψ x y) := by
            rcases hstep with hspecial | hinner
            · rcases hplace key v w x (.member hmem hkept) hspecial hx with ⟨y, hy, hxy⟩
              exact ⟨y, hy, Or.inr (Or.inl hxy)⟩
            · rcases entered_rewrites hΦ key hinner with
                ⟨node, node', hv, hw, heq | hnode⟩ | ⟨-, -, hsame⟩
              · rw [scrubValue_of_entered hv] at hx
                rw [scrubValue_of_entered hw, ← heq]
                exact ⟨x, hx, Or.inl rfl⟩
              · rw [scrubValue_of_entered hv] at hx
                rw [scrubValue_of_entered hw]
                rcases ih key v hmem node hv node' x (fun key' v' w' x' hvisits =>
                  hplace key' v' w' x' (.inside hmem hkept hv hvisits)) hnode hx with ⟨y, hy, hxy⟩
                exact ⟨y, hy, hxy.imp id Or.inr⟩
              · exact ⟨x, hsame x hx, Or.inl rfl⟩
          rcases hvalue with ⟨y, hy, hxy⟩
          refine ⟨.obj (us ++ (key, y) :: rest), scrub_obj_eq_ok.mpr ⟨_, ?_, rfl⟩, ?_⟩
          · exact scrubMembers_append_eq_ok.mpr ⟨us, _, hus,
              scrubMembers_cons_eq_ok.mpr (Or.inr ⟨hkept, y, rest, hy, hrest, rfl⟩), rfl⟩
          · rcases hxy with rfl | hxy | hxy
            · exact Or.inl rfl
            · exact Or.inr (.here hxy)
            · exact Or.inr (.member hxy)
      · cases hlist

/-- Changed values are walked through alike, if the mask goes into no value that
    was put in. -/
theorem Visits.of_rewrites (hΦ : OnSpecialKeys Φ)
    (hclosed : ∀ key v w, Φ key v w → entered key w = none) : ∀ a b, Rewrites Φ a b →
    ∀ key w, Visits b key w →
    ∃ v, Visits a key v ∧ (v = w ∨ Φ key v w ∨ Rewrites Φ v w) := by
  intro a
  induction a using scrub_induction with
  | hscalar node hscalar =>
      intro b h
      cases h <;> cases hscalar
  | hlist items ih =>
      intro b h key w' hvisits
      rcases h.inv with ⟨_, _, hobj, -, -⟩ | ⟨before, v, w, after, heq, rfl, hitem⟩
      · cases hobj
      · cases heq
        rcases hvisits with - | - | ⟨hmem, hvisits⟩
        rename_i item
        rcases List.mem_append.mp hmem with hmem | hmem
        · exact ⟨w', .item (List.mem_append_left _ hmem) hvisits, Or.inl rfl⟩
        · rcases List.mem_cons.mp hmem with rfl | hmem
          · have hv : v ∈ before ++ v :: after := by simp
            rcases ih v hv item hitem key w' hvisits with ⟨v', hvisits', hrel⟩
            exact ⟨v', .item hv hvisits', hrel⟩
          · exact ⟨w', .item (by simp [hmem]) hvisits, Or.inl rfl⟩
  | hobj fields ih =>
      intro b h key' w' hvisits
      rcases h.inv with ⟨_, _, heq, rfl, hmembers⟩ | ⟨_, _, _, _, hlist, -, -⟩
      · cases heq
        rcases hmembers.place with ⟨before, key, v, w, after, rfl, rfl, hstep⟩
        have hv : (key, v) ∈ before ++ (key, v) :: after := by simp
        -- A member of the changed value is the changed one or one of the others.
        have hmember : ∀ k u, (k, u) ∈ before ++ (key, w) :: after →
            (k = key ∧ u = w) ∨ (k, u) ∈ before ++ (key, v) :: after := by
          intro k u hmem
          simp only [List.mem_append, List.mem_cons, Prod.mk.injEq] at hmem ⊢
          tauto
        cases hvisits with
        | member hmem hkept =>
            rcases hmember _ _ hmem with ⟨rfl, rfl⟩ | hold
            · exact ⟨v, .member hv hkept, Or.inr hstep⟩
            · exact ⟨w', .member hold hkept, Or.inl rfl⟩
        | inside hmem hkept hentered hvisits =>
            rcases hmember _ _ hmem with ⟨rfl, rfl⟩ | hold
            · rcases hstep with hspecial | hinner
              · rw [hclosed _ _ _ hspecial] at hentered
                cases hentered
              · rcases entered_rewrites hΦ _ hinner with
                  ⟨node, node', hv', hw', hnode⟩ | ⟨-, hnone, -⟩
                · rw [hw'] at hentered
                  cases hentered
                  rcases hnode with rfl | hnode
                  · exact ⟨w', .inside hv hkept hv' hvisits, Or.inl rfl⟩
                  · rcases ih _ _ hv node hv' _ hnode _ _ hvisits with ⟨v', hvisits', hrel⟩
                    exact ⟨v', .inside hv hkept hv' hvisits', hrel⟩
                · rw [hnone] at hentered
                  cases hentered
            · exact ⟨w', .inside hold hkept hentered hvisits, Or.inl rfl⟩
      · cases hlist

/-- What is published for a member that is come to is part of the result. -/
theorem Visits.visible (hΦ : OnSpecialKeys Φ) {a : Json} {key : PyStr} {v : Json}
    (hvisits : Visits a key v) {w x y : Json} (hstep : Φ key v w) (hx : scrubValue key v = .ok x)
    (hy : scrubValue key w = .ok y) : ∀ out, scrub a = .ok out →
    ∃ b out', Rewrites Φ a b ∧ scrub b = .ok out' ∧
      Rewrites (fun k x' y' => k = key ∧ x' = x ∧ y' = y) out out' := by
  -- The induction is on how the mask comes to the member, and the change is made there.
  induction hvisits with
  | member hmem hkept =>
      intro out hout
      rcases scrub_obj_eq_ok.mp hout with ⟨outs, houts, rfl⟩
      rcases List.append_of_mem hmem with ⟨before, after, rfl⟩
      rcases scrubMembers_append_eq_ok.mp houts with ⟨us, vs, hus, hvs, rfl⟩
      rcases scrubMembers_cons_eq_ok.mp hvs with ⟨hdropped, -⟩ | ⟨-, x', rest, hx', hrest, rfl⟩
      · rw [hkept] at hdropped
        cases hdropped
      · rw [hx] at hx'
        cases hx'
        refine ⟨_, _, .here hstep, scrub_obj_eq_ok.mpr ⟨_, scrubMembers_append_eq_ok.mpr
          ⟨us, _, hus, scrubMembers_cons_eq_ok.mpr (Or.inr ⟨hkept, y, rest, hy, hrest, rfl⟩), rfl⟩,
          rfl⟩, .here ⟨rfl, rfl, rfl⟩⟩
  -- The change is inside a member, and so is what it changes in the result.
  | inside hmem hkept hentered _ ih =>
      intro out hout
      rcases scrub_obj_eq_ok.mp hout with ⟨outs, houts, rfl⟩
      rcases List.append_of_mem hmem with ⟨before, after, rfl⟩
      rcases scrubMembers_append_eq_ok.mp houts with ⟨us, vs, hus, hvs, rfl⟩
      rcases scrubMembers_cons_eq_ok.mp hvs with ⟨hdropped, -⟩ | ⟨-, z, rest, hz, hrest, rfl⟩
      · rw [hkept] at hdropped
        cases hdropped
      · rw [scrubValue_of_entered hentered] at hz
        rcases ih hstep hx hy z hz with ⟨node', z', hnode, hz', hrewrites⟩
        rcases exists_of_entered_rewrites hΦ hentered hnode with ⟨u, hu, hentered'⟩
        refine ⟨_, _, .member hu, scrub_obj_eq_ok.mpr ⟨_, scrubMembers_append_eq_ok.mpr
          ⟨us, _, hus, scrubMembers_cons_eq_ok.mpr (Or.inr ⟨hkept, z', rest, ?_, hrest, rfl⟩), rfl⟩,
          rfl⟩, .member hrewrites⟩
        rw [scrubValue_of_entered hentered', hz']
  -- The change is inside an item.
  | item hmem _ ih =>
      intro out hout
      rcases scrub_list_eq_ok.mp hout with ⟨outs, houts, rfl⟩
      rcases List.append_of_mem hmem with ⟨before, after, rfl⟩
      rcases (Except.mapM_append_eq_ok _ _ _ _).mp houts with ⟨us, vs, hus, hvs, rfl⟩
      rw [List.mapM_cons, Except.bind_eq_ok] at hvs
      rcases hvs with ⟨z, hz, hrest⟩
      rw [Except.bind_eq_ok] at hrest
      rcases hrest with ⟨rest, hrest, heq⟩
      cases heq
      rcases ih hstep hx hy z hz with ⟨node', z', hnode, hz', hrewrites⟩
      refine ⟨_, .list (us ++ z' :: rest), .item hnode, scrub_list_eq_ok.mpr ⟨_, ?_, rfl⟩,
        .item hrewrites⟩
      refine (Except.mapM_append_eq_ok _ _ _ _).mpr ⟨us, z' :: rest, hus, ?_, rfl⟩
      rw [List.mapM_cons, hz', hrest]
      rfl

end Steps


end Api

end STS2RL
