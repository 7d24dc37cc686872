import STS2RL.Api.MaskingWalk

/-!
# Masked States

A state is masked together with its extra, and the two are put together after
they were masked. Since the mask treats every member by its name, they may as
well be put together first: what is published is the mask of `published`, in which
the extra stands over the state, a terminal state has no actions, and the stamps
are set.

So a change at one place of the state or the extra is a change at one place of
what is put together, or is not seen, and every place of it comes from one of the
two.

## Main definitions

* `published`: What is put together, before it is masked.
* `InputStep`: One place of a state or its extra is changed.

## Theorems

* `buildMaskedEmulatorDto_eq_ok`: What is published is the mask of what was put
  together.
* `published_step`, `exists_of_published_step`: Places of the inputs and places of
  what is put together.
-/

namespace STS2RL

namespace Api

open STS2RL.Json

/-!
### The masked overlay

What is published is the masked state with the members of the extra over it, each masked,
and the marks of its end.
-/

section Overlay

/-- The members of a state that are published, before they are masked. -/
def published (rawState : Fields) (extra : Option Fields) : Fields :=
  stamp (closeTerminal (updateFields rawState (extra.getD [])))

/-- A state that ends the combat and the run. -/
def isTwiceTerminal (rawState : Fields) (extra : Option Fields) : Prop :=
  isTrueField (updateFields rawState (extra.getD [])) "terminal" = true ∧
    isTrueField (updateFields rawState (extra.getD [])) "run_terminal" = true

/-- The mask of a member that is set is set in the mask. -/
theorem scrubMembers_setL {key : PyStr} {value x : Json} (hkept : isKept key = true)
    (hx : scrubValue key value = .ok x) {fields outs : Fields}
    (houts : scrubMembers fields = .ok outs) :
    scrubMembers (Dict.setL key value fields) = .ok (Dict.setL key x outs) := by
  induction fields generalizing outs with
  | nil =>
      rw [scrubMembers] at houts
      cases houts
      exact scrubMembers_cons_eq_ok.mpr (Or.inr ⟨hkept, x, [], hx, by rw [scrubMembers], rfl⟩)
  | cons m rest ih =>
      rcases m with ⟨k, v⟩
      rcases scrubMembers_cons_eq_ok.mp houts with
        ⟨hdropped, hrest⟩ | ⟨hk', y, restOuts, hy, hrest, rfl⟩
      · have hk : k ≠ key := by
          rintro rfl
          rw [hkept] at hdropped
          cases hdropped
        rw [Dict.setL_cons_ne hk]
        exact scrubMembers_cons_eq_ok.mpr (Or.inl ⟨hdropped, ih hrest⟩)
      · by_cases hk : k = key
        · subst hk
          rw [Dict.setL_cons_self, Dict.setL_cons_self]
          exact scrubMembers_cons_eq_ok.mpr (Or.inr ⟨hkept, x, restOuts, hx, hrest, rfl⟩)
        · rw [Dict.setL_cons_ne hk, Dict.setL_cons_ne hk]
          exact scrubMembers_cons_eq_ok.mpr (Or.inr ⟨hk', y, _, hy, ih hrest, rfl⟩)

/-- A dropped member that is set is not seen. -/
theorem scrubMembers_setL_dropped {key : PyStr} {value : Json} (hdropped : isKept key = false)
    {fields outs : Fields} (houts : scrubMembers fields = .ok outs) :
    scrubMembers (Dict.setL key value fields) = .ok outs := by
  induction fields generalizing outs with
  | nil => exact scrubMembers_cons_eq_ok.mpr (Or.inl ⟨hdropped, houts⟩)
  | cons m rest ih =>
      rcases m with ⟨k, v⟩
      rcases scrubMembers_cons_eq_ok.mp houts with
        ⟨hk', hrest⟩ | ⟨hk', y, restOuts, hy, hrest, rfl⟩
      · by_cases hk : k = key
        · subst hk
          rw [Dict.setL_cons_self]
          exact scrubMembers_cons_eq_ok.mpr (Or.inl ⟨hdropped, hrest⟩)
        · rw [Dict.setL_cons_ne hk]
          exact scrubMembers_cons_eq_ok.mpr (Or.inl ⟨hk', ih hrest⟩)
      · have hk : k ≠ key := by
          rintro rfl
          rw [hdropped] at hk'
          cases hk'
        rw [Dict.setL_cons_ne hk]
        exact scrubMembers_cons_eq_ok.mpr (Or.inr ⟨hk', y, _, hy, ih hrest, rfl⟩)

/-- The mask of an update is the update of the masks. -/
theorem scrubMembers_updateFields {extra extraOuts : Fields}
    (hextra : scrubMembers extra = .ok extraOuts) : ∀ {fields outs : Fields},
    scrubMembers fields = .ok outs →
      scrubMembers (updateFields fields extra) = .ok (updateFields outs extraOuts) := by
  induction extra generalizing extraOuts with
  | nil =>
      intro fields outs houts
      rw [scrubMembers] at hextra
      cases hextra
      exact houts
  | cons m rest ih =>
      rcases m with ⟨key, value⟩
      intro fields outs houts
      rcases scrubMembers_cons_eq_ok.mp hextra with
        ⟨hdropped, hrest⟩ | ⟨hkept, x, restOuts, hx, hrest, rfl⟩
      · exact ih hrest (scrubMembers_setL_dropped hdropped houts)
      · exact ih hrest (scrubMembers_setL hkept hx houts)

/-- The mask of a member that is looked up. -/
theorem lookupL_scrubMembers {key : PyStr} (hkept : isKept key = true) {fields outs : Fields}
    (houts : scrubMembers fields = .ok outs) :
    (Dict.lookupL key fields = none ∧ Dict.lookupL key outs = none) ∨
      ∃ v x, Dict.lookupL key fields = some v ∧ Dict.lookupL key outs = some x ∧
        scrubValue key v = .ok x := by
  induction fields generalizing outs with
  | nil =>
      rw [scrubMembers] at houts
      cases houts
      exact Or.inl ⟨rfl, rfl⟩
  | cons m rest ih =>
      rcases m with ⟨k, v⟩
      rcases scrubMembers_cons_eq_ok.mp houts with
        ⟨hdropped, hrest⟩ | ⟨-, x, restOuts, hx, hrest, rfl⟩
      · have hk : k ≠ key := by
          rintro rfl
          rw [hkept] at hdropped
          cases hdropped
        rw [Dict.lookupL_cons_ne hk]
        exact ih hrest
      · by_cases hk : k = key
        · subst hk
          exact Or.inr ⟨v, x, Dict.lookupL_cons_self _ _ _, Dict.lookupL_cons_self _ _ _, hx⟩
        · rw [Dict.lookupL_cons_ne hk, Dict.lookupL_cons_ne hk]
          exact ih hrest

theorem scrub_scalar {v : Json} (h : isScalar v = true) : scrub v = .ok v := by
  cases v <;> cases h
  all_goals
    rw [scrub]
    all_goals simp

/-- Only a scalar is published as that scalar. -/
theorem scrub_eq_ok_scalar {v w : Json} (hw : isScalar w = true) : scrub v = .ok w ↔ v = w := by
  constructor
  · intro h
    cases v with
    | obj fields =>
        rcases scrub_obj_eq_ok.mp h with ⟨_, -, rfl⟩
        cases hw
    | list items =>
        rcases scrub_list_eq_ok.mp h with ⟨_, -, rfl⟩
        cases hw
    | null | bool _ | int _ | float _ | str _ =>
        rw [scrub_scalar rfl] at h
        exact Except.ok.inj h
  · rintro rfl
    exact scrub_scalar hw

/-- The names that the envelope, its actions and its choices are made of. -/
def plainKeys : List String :=
  ["terminal", "run_terminal", "legal_actions", "dto_version", "mask_version", "action_id",
    "optionId"] ++ publicPendingChoiceKeys ++ publicChoiceSemanticsKeys

/-- The mask treats none of them in a way of its own. -/
theorem untreated_plainKeys : ∀ key ∈ plainKeys, isKept (.text key) = true ∧
    PyStr.text key ∉ multisetPileKeys ∧ PyStr.text key ≠ .text "pendingChoice" ∧
      isMetricsKey (.text key) = false := by
  decide +kernel

/-- A name without a treatment of its own. -/
structure IsPlainKey (key : String) : Prop where
  kept : isKept (.text key) = true
  notPile : PyStr.text key ∉ multisetPileKeys
  notPending : PyStr.text key ≠ .text "pendingChoice"
  notMetrics : isMetricsKey (.text key) = false

theorem isPlainKey_of_mem {key : String} (hkey : key ∈ plainKeys) : IsPlainKey key := by
  rcases untreated_plainKeys key hkey with ⟨hkept, hpile, hpending, hmetrics⟩
  exact ⟨hkept, hpile, hpending, hmetrics⟩

theorem IsPlainKey.entered_eq {key : String} (h : IsPlainKey key) (value : Json) :
    entered (.text key) value = some value := by
  unfold entered
  rw [if_neg h.notPile, if_neg h.notPending, if_neg (by simp [h.notMetrics])]

theorem IsPlainKey.scrubValue_eq {key : String} (h : IsPlainKey key) (value : Json) :
    scrubValue (.text key) value = scrub value := scrubValue_of_entered (h.entered_eq value)

/-- A flag is published as it is. -/
theorem isTrueField_scrubMembers {key : String} (hkey : IsPlainKey key) {fields outs : Fields}
    (houts : scrubMembers fields = .ok outs) : isTrueField outs key = isTrueField fields key := by
  unfold isTrueField getField
  rcases lookupL_scrubMembers hkey.kept houts with ⟨hnone, hnone'⟩ | ⟨v, x, hv, hx, hscrubbed⟩
  · rw [hnone, hnone']
  · rw [hv, hx, Option.getD_some, Option.getD_some, decide_eq_decide]
    rw [hkey.scrubValue_eq] at hscrubbed
    constructor
    · rintro rfl
      exact (scrub_eq_ok_scalar rfl).mp hscrubbed
    · rintro rfl
      rw [scrub_scalar rfl] at hscrubbed
      exact (Except.ok.inj hscrubbed).symm

theorem isPlainKey_terminal : IsPlainKey "terminal" := isPlainKey_of_mem (by simp [plainKeys])

theorem isPlainKey_run_terminal : IsPlainKey "run_terminal" :=
    isPlainKey_of_mem (by simp [plainKeys])

theorem isPlainKey_legal_actions : IsPlainKey "legal_actions" :=
    isPlainKey_of_mem (by simp [plainKeys])

theorem isPlainKey_dto_version : IsPlainKey "dto_version" := isPlainKey_of_mem (by simp [plainKeys])

theorem isPlainKey_mask_version : IsPlainKey "mask_version" :=
    isPlainKey_of_mem (by simp [plainKeys])

theorem scrubMembers_setMember {key : String} (hkey : IsPlainKey key) {value x : Json}
    (hx : scrub value = .ok x) {fields outs : Fields} (houts : scrubMembers fields = .ok outs) :
    scrubMembers (setMember key value fields) = .ok (setMember key x outs) :=
  scrubMembers_setL hkey.kept (by rw [hkey.scrubValue_eq, hx]) houts

theorem scrub_list_nil : scrub (.list []) = .ok (.list []) :=
  scrub_list_eq_ok.mpr ⟨[], rfl, rfl⟩

/-- The marks of an end stay what they are. -/
theorem scrubMembers_closeTerminal {fields outs : Fields} (houts : scrubMembers fields = .ok outs) :
    scrubMembers (closeTerminal fields) = .ok (closeTerminal outs) := by
  have hactions : (Dict.lookupL (.text "legal_actions") outs).isSome =
      (Dict.lookupL (.text "legal_actions") fields).isSome := by
    rcases lookupL_scrubMembers isPlainKey_legal_actions.kept houts with
      ⟨hnone, hnone'⟩ | ⟨v, x, hv, hx, -⟩
    · rw [hnone, hnone']
    · rw [hv, hx]
      rfl
  unfold closeTerminal
  rw [isTrueField_scrubMembers isPlainKey_terminal houts,
    isTrueField_scrubMembers isPlainKey_run_terminal houts, hactions]
  split
  · exact scrubMembers_setMember isPlainKey_legal_actions scrub_list_nil houts
  · split
    · exact scrubMembers_setMember isPlainKey_legal_actions scrub_list_nil houts
    · exact houts

theorem scrubMembers_stamp {fields outs : Fields} (houts : scrubMembers fields = .ok outs) :
    scrubMembers (stamp fields) = .ok (stamp outs) :=
  scrubMembers_setMember isPlainKey_mask_version (scrub_scalar rfl)
    (scrubMembers_setMember isPlainKey_dto_version (scrub_scalar rfl) houts)

/-- What is published is the mask of what was put together. -/
theorem buildMaskedEmulatorDto_eq_ok {rawState : Fields} {extra : Option Fields} {out : Fields} :
    buildMaskedEmulatorDto rawState extra = .ok out ↔
      (∃ masked, scrubMembers rawState = .ok masked) ∧
      (∃ masked, scrubMembers (extra.getD []) = .ok masked) ∧
      ¬ isTwiceTerminal rawState extra ∧ scrubMembers (published rawState extra) = .ok out := by
  unfold buildMaskedEmulatorDto isTwiceTerminal published
  cases hraw : scrubMembers rawState with
  | error exc => simp
  | ok masked =>
      cases hextra : scrubMembers (extra.getD []) with
      | error exc => simp
      | ok maskedExtra =>
          have hupdate := scrubMembers_updateFields hextra hraw
          have hout := scrubMembers_stamp (scrubMembers_closeTerminal hupdate)
          dsimp only
          rw [isTrueField_scrubMembers isPlainKey_terminal hupdate,
            isTrueField_scrubMembers isPlainKey_run_terminal hupdate, hout]
          by_cases htwice : isTrueField (updateFields rawState (extra.getD [])) "terminal" = true ∧
              isTrueField (updateFields rawState (extra.getD [])) "run_terminal" = true
          · simp [htwice]
          · rw [if_neg htwice]
            simp [htwice]

end Overlay

/-!
### Steps of the inputs

A change of the state or of the extra is a change of what is published, and the other way
round.
-/

section Steps

variable {Φ : PyStr → Json → Json → Prop}

/-- A step and a member that is set: the step is overwritten or stays. -/
theorem setL_rewrites {xs ys : Fields} (h : RewritesMembers Φ xs ys) (key : PyStr) (value : Json) :
    Dict.setL key value xs = Dict.setL key value ys ∨
      RewritesMembers Φ (Dict.setL key value xs) (Dict.setL key value ys) := by
  rcases h.place with ⟨before, k, v, w, after, rfl, rfl, hplace⟩
  clear h
  induction before with
  | nil =>
      by_cases hk : k = key
      · subst hk
        exact Or.inl (by simp)
      · rw [List.nil_append, List.nil_append, Dict.setL_cons_ne hk, Dict.setL_cons_ne hk]
        exact Or.inr ⟨[], k, v, w, _, rfl, rfl, hplace⟩
  | cons m rest ih =>
      rcases m with ⟨k', v'⟩
      by_cases hk : k' = key
      · subst hk
        rw [List.cons_append, List.cons_append, Dict.setL_cons_self, Dict.setL_cons_self]
        exact Or.inr ⟨(k', value) :: rest, k, v, w, after, rfl, rfl, hplace⟩
      · rw [List.cons_append, List.cons_append, Dict.setL_cons_ne hk, Dict.setL_cons_ne hk]
        rcases ih with heq | hrest
        · exact Or.inl (by rw [heq])
        · exact Or.inr (hrest.append_left [(k', v')])

/-- A step in the value that is set. -/
theorem setL_value_rewrites {key : PyStr} {v w : Json} (h : Φ key v w ∨ Rewrites Φ v w)
    (fields : Fields) :
    RewritesMembers Φ (Dict.setL key v fields) (Dict.setL key w fields) := by
  induction fields with
  | nil => exact ⟨[], key, v, w, [], rfl, rfl, h⟩
  | cons m rest ih =>
      rcases m with ⟨k, u⟩
      by_cases hk : k = key
      · subst hk
        rw [Dict.setL_cons_self, Dict.setL_cons_self]
        exact ⟨[], k, v, w, rest, rfl, rfl, h⟩
      · rw [Dict.setL_cons_ne hk, Dict.setL_cons_ne hk]
        exact ih.append_left [(k, u)]

/-- A place after a member was set: in its value, or in what there was before. -/
theorem exists_of_setL_rewrites {key : PyStr} {value : Json} {xs zs : Fields}
    (h : RewritesMembers Φ (Dict.setL key value xs) zs) :
    (∃ value', (Φ key value value' ∨ Rewrites Φ value value') ∧ zs = Dict.setL key value' xs) ∨
      ∃ xs', RewritesMembers Φ xs xs' ∧ zs = Dict.setL key value xs' := by
  -- The induction is on the members. Setting a key writes its first member, or one at the end.
  induction xs generalizing zs with
  | nil =>
      rcases h.place with ⟨before, k, v, w, after, heq, rfl, hplace⟩
      rcases List.append_eq_singleton_iff.mp heq.symm with ⟨rfl, hcons⟩ | ⟨-, hcons⟩
      · cases hcons
        exact Or.inl ⟨w, hplace, rfl⟩
      · cases hcons
  | cons m rest ih =>
      rcases m with ⟨k, u⟩
      by_cases hk : k = key
      -- The written member is the first, so the change is in it or in the rest.
      · subst hk
        rw [Dict.setL_cons_self] at h
        have h' : RewritesMembers Φ ([(k, value)] ++ rest) zs := h
        rcases h'.append with ⟨ms, hone, rfl⟩ | ⟨rest', hrest, rfl⟩
        · rcases hone.place with ⟨before, k', v, w, after, heq, rfl, hplace⟩
          rcases List.append_eq_singleton_iff.mp heq.symm with ⟨rfl, hcons⟩ | ⟨-, hcons⟩
          · cases hcons
            exact Or.inl ⟨w, hplace, by rw [Dict.setL_cons_self]; rfl⟩
          · cases hcons
        · exact Or.inr ⟨(k, u) :: rest', hrest.append_left [(k, u)], by
            rw [Dict.setL_cons_self]; rfl⟩
      -- The first member is another one, which the change is in or not.
      · rw [Dict.setL_cons_ne hk] at h
        have h' : RewritesMembers Φ ([(k, u)] ++ Dict.setL key value rest) zs := h
        rcases h'.append with ⟨ms, hone, rfl⟩ | ⟨rest', hrest, rfl⟩
        · rcases hone.place with ⟨before, k', v, w, after, heq, rfl, hplace⟩
          rcases List.append_eq_singleton_iff.mp heq.symm with ⟨rfl, hcons⟩ | ⟨-, hcons⟩
          · cases hcons
            exact Or.inr ⟨(k, w) :: rest, ⟨[], k, u, w, rest, rfl, rfl, hplace⟩, by
              rw [Dict.setL_cons_ne hk]; rfl⟩
          · cases hcons
        · rcases ih hrest with ⟨value', hvalue, rfl⟩ | ⟨xs', hxs, rfl⟩
          · exact Or.inl ⟨value', hvalue, by rw [Dict.setL_cons_ne hk]; rfl⟩
          · exact Or.inr ⟨(k, u) :: xs', hxs.append_left [(k, u)], by
              rw [Dict.setL_cons_ne hk]; rfl⟩

theorem updateFields_rewrites {xs ys : Fields} (extra : Fields)
    (h : xs = ys ∨ RewritesMembers Φ xs ys) :
    updateFields xs extra = updateFields ys extra ∨
      RewritesMembers Φ (updateFields xs extra) (updateFields ys extra) := by
  induction extra generalizing xs ys with
  | nil => exact h
  | cons m rest ih =>
      refine ih ?_
      rcases h with rfl | h
      · exact Or.inl rfl
      · exact setL_rewrites h m.1 m.2

theorem updateFields_extra_rewrites {extra extra' : Fields} (h : RewritesMembers Φ extra extra')
    (fields : Fields) :
    updateFields fields extra = updateFields fields extra' ∨
      RewritesMembers Φ (updateFields fields extra) (updateFields fields extra') := by
  rcases h.place with ⟨before, k, v, w, after, rfl, rfl, hplace⟩
  unfold updateFields
  rw [List.foldl_append, List.foldl_append, List.foldl_cons, List.foldl_cons]
  exact updateFields_rewrites after (Or.inr (setL_value_rewrites hplace _))

/-- A place of an update comes from one of the two. -/
theorem exists_of_updateFields_rewrites {extra : Fields} : ∀ {fields zs : Fields},
    RewritesMembers Φ (updateFields fields extra) zs →
    (∃ fields', RewritesMembers Φ fields fields' ∧ zs = updateFields fields' extra) ∨
      ∃ extra', RewritesMembers Φ extra extra' ∧ zs = updateFields fields extra' := by
  induction extra with
  | nil => exact fun h => Or.inl ⟨_, h, rfl⟩
  | cons m rest ih =>
      intro fields zs h
      rcases m with ⟨k, v⟩
      rcases ih h with ⟨fields', hfields, rfl⟩ | ⟨rest', hrest, rfl⟩
      · rcases exists_of_setL_rewrites hfields with ⟨w, hw, rfl⟩ | ⟨fields'', hstep, rfl⟩
        · exact Or.inr ⟨(k, w) :: rest, ⟨[], k, v, w, rest, rfl, rfl, hw⟩, rfl⟩
        · exact Or.inl ⟨fields'', hstep, rfl⟩
      · exact Or.inr ⟨(k, v) :: rest', hrest.append_left [(k, v)], rfl⟩

/-- A value without a place for a step. -/
def Closed (Φ : PyStr → Json → Json → Prop) (key : String) (value : Json) : Prop :=
  ∀ w, ¬ (Φ (.text key) value w ∨ Rewrites Φ value w)

theorem closed_scalar (hΦ : OnSpecialKeys Φ) {key : String}
    (hkey : isSpecialKey (.text key) = false) {value : Json} (hscalar : isScalar value = true) :
    Closed Φ key value := by
  rintro w (hspecial | hrewrites)
  · exact absurd (hΦ _ _ _ hspecial) (by simp [hkey])
  · cases hrewrites <;> cases hscalar

theorem closed_nil (hΦ : OnSpecialKeys Φ) {key : String}
    (hkey : isSpecialKey (.text key) = false) : Closed Φ key (.list []) := by
  rintro w (hspecial | hrewrites)
  · exact absurd (hΦ _ _ _ hspecial) (by simp [hkey])
  · rcases hrewrites.inv with ⟨_, _, hobj, -, -⟩ | ⟨before, _, _, _, hnil, -, -⟩
    · cases hobj
    · cases before <;> cases hnil

theorem exists_of_setMember_rewrites {key : String} {value : Json} (hclosed : Closed Φ key value)
    {xs zs : Fields} (h : RewritesMembers Φ (setMember key value xs) zs) :
    ∃ xs', RewritesMembers Φ xs xs' ∧ zs = setMember key value xs' := by
  rcases exists_of_setL_rewrites h with ⟨w, hw, -⟩ | hxs
  · exact absurd hw (hclosed w)
  · exact hxs

theorem isTrueField_rewrites (hΦ : OnSpecialKeys Φ) {xs ys : Fields} (h : RewritesMembers Φ xs ys)
    {key : String} (hkey : isSpecialKey (.text key) = false) :
    isTrueField xs key = isTrueField ys key :=
  (getField_sameOutside hΦ h key hkey).congr (fun value => decide (value = .bool true))
    (fun _ _ => rfl) fun _ _ => rfl

theorem isSome_lookupL_rewrites {xs ys : Fields} (h : RewritesMembers Φ xs ys) (key : PyStr) :
    (Dict.lookupL key xs).isSome = (Dict.lookupL key ys).isSome := by
  rcases h.lookup key with heq | ⟨v, w, hv, hw, -⟩
  · rw [heq]
  · rw [hv, hw]
    rfl

theorem closeTerminal_rewrites (hΦ : OnSpecialKeys Φ) {xs ys : Fields}
    (h : RewritesMembers Φ xs ys) :
    closeTerminal xs = closeTerminal ys ∨
      RewritesMembers Φ (closeTerminal xs) (closeTerminal ys) := by
  unfold closeTerminal
  rw [isTrueField_rewrites hΦ h (by decide), isTrueField_rewrites hΦ h (by decide),
    isSome_lookupL_rewrites h]
  split
  · exact setL_rewrites h _ _
  · split
    · exact setL_rewrites h _ _
    · exact Or.inr h

/-- A change of a state with the marks of its end is a change of the state. -/
theorem exists_of_closeTerminal_rewrites (hΦ : OnSpecialKeys Φ) {xs zs : Fields}
    (h : RewritesMembers Φ (closeTerminal xs) zs) :
    ∃ xs', RewritesMembers Φ xs xs' ∧ zs = closeTerminal xs' := by
  have hclosed : Closed Φ "legal_actions" (.list []) := closed_nil hΦ (by decide)
  -- The flags after the step are the flags before it.
  have hflags : ∀ xs', RewritesMembers Φ xs xs' → closeTerminal xs' =
      if isTrueField xs "terminal" then setMember "legal_actions" (.list []) xs'
      else if isTrueField xs "run_terminal" ∧
          (Dict.lookupL (.text "legal_actions") xs).isSome then
        setMember "legal_actions" (.list []) xs'
      else xs' := by
    intro xs' hstep
    unfold closeTerminal
    rw [isTrueField_rewrites hΦ hstep (by decide), isTrueField_rewrites hΦ hstep (by decide),
      isSome_lookupL_rewrites hstep]
  unfold closeTerminal at h
  by_cases hterminal : isTrueField xs "terminal" = true
  · rw [if_pos hterminal] at h
    rcases exists_of_setMember_rewrites hclosed h with ⟨xs', hstep, rfl⟩
    exact ⟨xs', hstep, by rw [hflags xs' hstep, if_pos hterminal]⟩
  · rw [if_neg hterminal] at h
    by_cases hrun : isTrueField xs "run_terminal" = true ∧
        (Dict.lookupL (.text "legal_actions") xs).isSome = true
    · rw [if_pos hrun] at h
      rcases exists_of_setMember_rewrites hclosed h with ⟨xs', hstep, rfl⟩
      exact ⟨xs', hstep, by rw [hflags xs' hstep, if_neg hterminal, if_pos hrun]⟩
    · rw [if_neg hrun] at h
      exact ⟨zs, h, by rw [hflags zs h, if_neg hterminal, if_neg hrun]⟩

theorem stamp_rewrites {xs ys : Fields} (h : RewritesMembers Φ xs ys) :
    stamp xs = stamp ys ∨ RewritesMembers Φ (stamp xs) (stamp ys) := by
  unfold stamp
  rcases setL_rewrites h (.text "dto_version") (.str (.text dtoVersion)) with heq | hstep
  · exact Or.inl (by unfold setMember; rw [heq])
  · exact setL_rewrites hstep _ _

theorem exists_of_stamp_rewrites (hΦ : OnSpecialKeys Φ) {xs zs : Fields}
    (h : RewritesMembers Φ (stamp xs) zs) : ∃ xs', RewritesMembers Φ xs xs' ∧ zs = stamp xs' := by
  rcases exists_of_setMember_rewrites (closed_scalar hΦ (by decide) rfl) h with ⟨ys, hys, rfl⟩
  rcases exists_of_setMember_rewrites (closed_scalar hΦ (by decide) rfl) hys with ⟨xs', hxs, rfl⟩
  exact ⟨xs', hxs, rfl⟩

/-- One place of a state or its extra is changed. -/
inductive InputStep (Φ : PyStr → Json → Json → Prop) :
    Fields × Option Fields → Fields × Option Fields → Prop where
  | rawState {rawState rawState' : Fields} {extra : Option Fields}
      (h : RewritesMembers Φ rawState rawState') :
      InputStep Φ (rawState, extra) (rawState', extra)
  | extra {rawState extra extra' : Fields} (h : RewritesMembers Φ extra extra') :
      InputStep Φ (rawState, some extra) (rawState, some extra')

theorem InputStep.flip {inputs inputs' : Fields × Option Fields} (h : InputStep Φ inputs inputs') :
    InputStep (fun key v w => Φ key w v) inputs' inputs := by
  cases h with
  | rawState h => exact .rawState h.flip
  | extra h => exact .extra h.flip

theorem InputStep.update {inputs inputs' : Fields × Option Fields}
    (h : InputStep Φ inputs inputs') :
    updateFields inputs.1 (inputs.2.getD []) = updateFields inputs'.1 (inputs'.2.getD []) ∨
      RewritesMembers Φ (updateFields inputs.1 (inputs.2.getD []))
        (updateFields inputs'.1 (inputs'.2.getD [])) := by
  cases h with
  | rawState h => exact updateFields_rewrites _ (Or.inr h)
  | extra h => exact updateFields_extra_rewrites h _

/-- A change of the inputs is one of what is put together, or is not seen. -/
theorem published_step (hΦ : OnSpecialKeys Φ) {inputs inputs' : Fields × Option Fields}
    (h : InputStep Φ inputs inputs') :
    published inputs.1 inputs.2 = published inputs'.1 inputs'.2 ∨
      RewritesMembers Φ (published inputs.1 inputs.2) (published inputs'.1 inputs'.2) := by
  unfold published
  rcases h.update with heq | hupdate
  · exact Or.inl (by rw [heq])
  · rcases closeTerminal_rewrites hΦ hupdate with heq | hclosed
    · exact Or.inl (by rw [heq])
    · exact stamp_rewrites hclosed

/-- A place of what is put together is one of the inputs. -/
theorem exists_of_published_step (hΦ : OnSpecialKeys Φ) {rawState zs : Fields}
    {extra : Option Fields} (h : RewritesMembers Φ (published rawState extra) zs) :
    ∃ inputs', InputStep Φ (rawState, extra) inputs' ∧ published inputs'.1 inputs'.2 = zs := by
  rcases exists_of_stamp_rewrites hΦ h with ⟨ys, hys, rfl⟩
  rcases exists_of_closeTerminal_rewrites hΦ hys with ⟨xs, hxs, rfl⟩
  rcases exists_of_updateFields_rewrites hxs with ⟨raw', hraw, rfl⟩ | ⟨extra', hextra, rfl⟩
  · exact ⟨(raw', extra), .rawState hraw, rfl⟩
  · cases extra with
    | none =>
        rcases hextra.place with ⟨before, _, _, _, _, hnil, -, -⟩
        cases before <;> cases hnil
    | some extra => exact ⟨(rawState, some extra'), .extra hextra, rfl⟩

/-- A change of the inputs ends no state. -/
theorem isTwiceTerminal_step (hΦ : OnSpecialKeys Φ) {inputs inputs' : Fields × Option Fields}
    (h : InputStep Φ inputs inputs') :
    isTwiceTerminal inputs.1 inputs.2 ↔ isTwiceTerminal inputs'.1 inputs'.2 := by
  unfold isTwiceTerminal
  rcases h.update with heq | hupdate
  · rw [heq]
  · rw [isTrueField_rewrites hΦ hupdate (by decide), isTrueField_rewrites hΦ hupdate (by decide)]

end Steps

end Api

end STS2RL
