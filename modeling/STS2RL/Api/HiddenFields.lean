import STS2RL.Api.MaskedState
import STS2RL.Api.ReprText
import STS2RL.Core.JsonText
import Mathlib.Logic.Relation

/-!
# Names and Values Behind the Mask

No name that the mask drops is published at any depth: a member is published
under its own name if that is kept, and the records of cards and choices have
names of their own that are kept.

Diagnostics are emptied, but only where they are records. A list or a scalar
under such a name is masked like any other value, and so published. That is seen
as soon as the value is taken out, also where it is part of an action id that is
turned into a text.

## Main definitions

* `HasKey`: A member name, at any depth.
* `DiagnosticsEmptied`: What stands under a diagnostic name is taken out.
* `DiagnosticsAreRecords`: The mask comes to records only, under such names.

## Theorems

* `scrub_hasKey`: Every name that is published is kept.
* `masking_hides_fields_iff`: When nothing hidden is published.
-/

namespace STS2RL

namespace Api

open STS2RL.Json

/-!
### Keys of a masked state

The keys that can occur in what is published: those of the lists of the mask and those of
the records it builds.
-/

section Keys

/-- A member name, at any depth. -/
inductive HasKey : Json → PyStr → Prop where
  | here {fields : Fields} {key : PyStr} {value : Json} (hmem : (key, value) ∈ fields) :
      HasKey (.obj fields) key
  | member {fields : Fields} {name key : PyStr} {value : Json} (hmem : (name, value) ∈ fields)
      (h : HasKey value key) : HasKey (.obj fields) key
  | item {items : List Json} {value : Json} {key : PyStr} (hmem : value ∈ items)
      (h : HasKey value key) : HasKey (.list items) key

theorem not_hasKey_scalar {value : Json} (h : isScalar value = true) (key : PyStr) :
    ¬ HasKey value key := by
  intro hkey
  cases hkey <;> cases h

/-- The names of a card's record. -/
def recordKeys : List String :=
  ["id", "type", "rarity", "cost", "targetType", "upgraded", "upgradeLevel", "tinkerTimeType",
    "tinkerTimeRider", "enchantment", "amount", "status", "count"]

theorem isKept_recordKeys : ∀ key ∈ recordKeys, isKept (.text key) = true := by
  decide +kernel

/-- A record of a card has its own names, with scalars under them. -/
theorem record_hasKey {card : PublicCard}
    (hscalar : ∀ part ∈ card.identityKey, isScalar part = true)
    {count : Nat} {key : PyStr} (h : HasKey (card.record count) key) :
    ∃ name ∈ recordKeys, key = .text name := by
  simp only [PublicCard.identityKey, List.mem_cons, List.not_mem_nil, or_false, forall_eq_or_imp,
    forall_eq] at hscalar
  -- All parts of a card are scalars, so that no member is inside of one.
  rcases hscalar with ⟨hid, htype, hrarity, hcost, htarget, hupgraded, hlevel, htinkerType,
    htinkerRider, henchantmentId, hamount, hstatus⟩
  -- The enchantment is published with three members of its own.
  have henchantment : ∀ key, HasKey card.publicEnchantment key →
      ∃ name ∈ recordKeys, key = .text name := by
    intro key h
    unfold PublicCard.publicEnchantment at h
    cases he : card.enchantment with
    | none =>
        rw [he] at h
        exact absurd h (not_hasKey_scalar rfl key)
    | some triple =>
        rcases triple with ⟨enchantmentId, amount, status⟩
        rw [he] at h henchantmentId hamount hstatus
        cases h with
        | here hmem =>
            simp only [member, List.mem_cons, Prod.mk.injEq, List.not_mem_nil, or_false] at hmem
            rcases hmem with ⟨rfl, -⟩ | ⟨rfl, -⟩ | ⟨rfl, -⟩
            · exact ⟨"id", by simp [recordKeys], rfl⟩
            · exact ⟨"amount", by simp [recordKeys], rfl⟩
            · exact ⟨"status", by simp [recordKeys], rfl⟩
        | member hmem h =>
            simp only [member, List.mem_cons, Prod.mk.injEq, List.not_mem_nil, or_false] at hmem
            rcases hmem with ⟨-, rfl⟩ | ⟨-, rfl⟩ | ⟨-, rfl⟩
            · exact absurd h (not_hasKey_scalar henchantmentId key)
            · exact absurd h (not_hasKey_scalar hamount key)
            · exact absurd h (not_hasKey_scalar hstatus key)
  -- The record's own members, and then those inside of them.
  cases h with
  | here hmem =>
      simp only [member, List.mem_cons, Prod.mk.injEq, List.not_mem_nil, or_false] at hmem
      rcases hmem with ⟨rfl, -⟩ | ⟨rfl, -⟩ | ⟨rfl, -⟩ | ⟨rfl, -⟩ | ⟨rfl, -⟩ | ⟨rfl, -⟩ | ⟨rfl, -⟩ |
        ⟨rfl, -⟩ | ⟨rfl, -⟩ | ⟨rfl, -⟩ | ⟨rfl, -⟩
      all_goals exact ⟨_, by simp [recordKeys], rfl⟩
  | member hmem h =>
      simp only [member, List.mem_cons, Prod.mk.injEq, List.not_mem_nil, or_false] at hmem
      rcases hmem with ⟨-, rfl⟩ | ⟨-, rfl⟩ | ⟨-, rfl⟩ | ⟨-, rfl⟩ | ⟨-, rfl⟩ | ⟨-, rfl⟩ | ⟨-, rfl⟩ |
        ⟨-, rfl⟩ | ⟨-, rfl⟩ | ⟨-, rfl⟩ | ⟨-, rfl⟩
      · exact absurd h (not_hasKey_scalar hid key)
      · exact absurd h (not_hasKey_scalar htype key)
      · exact absurd h (not_hasKey_scalar hrarity key)
      · exact absurd h (not_hasKey_scalar hcost key)
      · exact absurd h (not_hasKey_scalar htarget key)
      · exact absurd h (not_hasKey_scalar rfl key)
      · exact absurd h (not_hasKey_scalar rfl key)
      · exact absurd h (not_hasKey_scalar htinkerType key)
      · exact absurd h (not_hasKey_scalar htinkerRider key)
      · exact henchantment key h
      · exact absurd h (not_hasKey_scalar rfl key)

/-- The names in a multiset are those of the records. -/
theorem multisetOf_hasKey {pile x : Json} (hx : multisetOf pile = .ok x) {key : PyStr}
    (h : HasKey x key) : isKept key = true := by
  unfold multisetOf at hx
  split at hx
  · rename_i entries
    rcases (Except.map_eq_ok _ _ _).mp hx with ⟨cards, hcards, rfl⟩
    rcases h with - | - | ⟨hmem, h⟩
    rcases List.mem_map.mp hmem with ⟨⟨card, count⟩, htally, rfl⟩
    have hcard := List.mem_of_find?_eq_some
      (Tally.mem_tally_iff.mp ((List.mem_insertionSort _).mp htally)).1
    rcases Except.exists_of_mem_mapM readCard _ cards hcards card hcard with ⟨entry, -, hentry⟩
    rcases readCard_eq_ok.mp hentry with ⟨_, _, -, -, -, hscalar⟩
    rcases record_hasKey hscalar h with ⟨name, hname, rfl⟩
    exact isKept_recordKeys name hname
  · cases hx
    rcases h with - | - | ⟨hmem, -⟩
    cases hmem

/-- A member that comes out of the walk was there, under a key that is kept. -/
theorem mem_scrubMembers {fields outs : Fields} (houts : scrubMembers fields = .ok outs)
    {key : PyStr} {x : Json} (hmem : (key, x) ∈ outs) :
    isKept key = true ∧ ∃ value, (key, value) ∈ fields ∧ scrubValue key value = .ok x := by
  induction fields generalizing outs with
  | nil =>
      rw [scrubMembers] at houts
      cases houts
      cases hmem
  | cons m rest ih =>
      rcases m with ⟨k, v⟩
      rcases scrubMembers_cons_eq_ok.mp houts with
        ⟨-, hrest⟩ | ⟨hkept, y, restOuts, hy, hrest, rfl⟩
      · rcases ih hrest hmem with ⟨hkey, value, hvalue, hx⟩
        exact ⟨hkey, value, List.mem_cons_of_mem _ hvalue, hx⟩
      · rcases List.mem_cons.mp hmem with heq | hmem
        · cases heq
          exact ⟨hkept, v, List.mem_cons_self, hy⟩
        · rcases ih hrest hmem with ⟨hkey, value, hvalue, hx⟩
          exact ⟨hkey, value, List.mem_cons_of_mem _ hvalue, hx⟩

/-- Every name that is published is kept. -/
theorem scrub_hasKey (node : Json) : ∀ out, scrub node = .ok out → ∀ key, HasKey out key →
    isKept key = true := by
  -- The induction is along the walk of the mask. A member of the result is kept by its name, or
  -- is inside a published value.
  induction node using scrub_induction with
  | hscalar node hscalar =>
      intro out hout key h
      rw [scrub_scalar hscalar] at hout
      cases hout
      exact absurd h (not_hasKey_scalar hscalar key)
  | hlist items ih =>
      intro out hout key h
      rcases scrub_list_eq_ok.mp hout with ⟨outs, houts, rfl⟩
      rcases h with - | - | ⟨hmem, h⟩
      rcases Except.exists_of_mem_mapM scrub items outs houts _ hmem with ⟨item, hitem, hscrubbed⟩
      exact ih item hitem _ hscrubbed key h
  | hobj fields ih =>
      intro out hout key h
      rcases scrub_obj_eq_ok.mp hout with ⟨outs, houts, rfl⟩
      cases h with
      | here hmem => exact (mem_scrubMembers houts hmem).1
      | member hmem h =>
          rcases mem_scrubMembers houts hmem with ⟨-, value, hvalue, hx⟩
          cases hentered : entered _ value with
          | some node =>
              rw [scrubValue_of_entered hentered] at hx
              exact ih _ value hvalue node hentered _ hx key h
          -- A value that is not entered is a pile, published as records, or diagnostics,
          -- published as nothing.
          | none =>
              unfold scrubValue at hx
              rw [hentered] at hx
              dsimp only at hx
              split at hx
              · exact multisetOf_hasKey hx h
              · cases hx
                cases h with
                | here hmem => cases hmem
                | member hmem _ => cases hmem

theorem scrubMembers_hasKey {fields outs : Fields} (houts : scrubMembers fields = .ok outs)
    {key : PyStr} (h : HasKey (.obj outs) key) : isKept key = true :=
  scrub_hasKey (.obj fields) (.obj outs) (scrub_obj_eq_ok.mpr ⟨outs, houts, rfl⟩) key h

/-- A member that is set is the new one or was there. -/
theorem mem_setL {fields : Fields} {key name : PyStr} {value x : Json}
    (h : (name, x) ∈ Dict.setL key value fields) :
    (name, x) = (key, value) ∨ (name, x) ∈ fields := by
  induction fields with
  | nil => exact Or.inl (List.mem_singleton.mp h)
  | cons m rest ih =>
      rcases m with ⟨k, v⟩
      by_cases hk : k = key
      · subst hk
        rw [Dict.setL_cons_self] at h
        exact (List.mem_cons.mp h).imp id (List.mem_cons_of_mem _)
      · rw [Dict.setL_cons_ne hk] at h
        rcases List.mem_cons.mp h with heq | hmem
        · exact Or.inr (heq ▸ List.mem_cons_self)
        · exact (ih hmem).imp id (List.mem_cons_of_mem _)

/-- The action id is published as a text, which adds no name. -/
theorem maskLegalAction_hasKey {action masked : Fields}
    (hmasked : maskLegalAction action = .ok masked)
    {key : PyStr} (h : HasKey (.obj masked) key) : isKept key = true := by
  rcases (Except.map_eq_ok _ _ _).mp hmasked with ⟨scrubbed, hscrubbed, rfl⟩
  have hactionId : isKept (.text "action_id") = true := by decide +kernel
  cases hlookup : Dict.lookupL (.text "action_id") scrubbed with
  | none =>
      rw [hlookup] at h
      exact scrubMembers_hasKey hscrubbed h
  | some actionId =>
      rw [hlookup] at h
      cases h with
      | here hmem =>
          rcases mem_setL hmem with heq | hold
          · cases heq
            exact hactionId
          · exact scrubMembers_hasKey hscrubbed (.here hold)
      | member hmem h =>
          rcases mem_setL hmem with heq | hold
          · cases heq
            exact absurd h (not_hasKey_scalar rfl key)
          · exact scrubMembers_hasKey hscrubbed (.member hold h)

end Keys

/-!
### Diagnostics that are emptied

Of the members with diagnostics only the public ones are published. Emptying the others
changes nothing if the member is an object, and that is all that can go wrong.
-/

section Emptied

/-- What stands under a diagnostic name is taken out. -/
def DiagnosticsEmptied (key : PyStr) (_ w : Json) : Prop :=
  isMetricsKey key = true ∧ w = .obj []

/-- The mask comes to records only, under such names. -/
def DiagnosticsAreRecords (node : Json) : Prop :=
  ∀ key value, Visits node key value → isMetricsKey key = true → value.fields?.isSome = true

theorem onSpecialKeys_diagnosticsEmptied : OnSpecialKeys DiagnosticsEmptied := by
  intro key v w h
  simp [isSpecialKey, h.1]

/-- A diagnostic name is that of no pile and of no pending choice. -/
theorem isMetricsKey_exclusive {key : PyStr} (h : isMetricsKey key = true) :
    key ∉ multisetPileKeys ∧ key ≠ .text "pendingChoice" := by
  constructor
  · intro hpile
    simp only [multisetPileKeys, List.mem_cons, List.not_mem_nil, or_false] at hpile
    rcases hpile with rfl | rfl | rfl <;> exact absurd h (by decide)
  · rintro rfl
    exact absurd h (by decide)

theorem entered_diagnostics {key : PyStr} (h : isMetricsKey key = true) (value : Json) :
    entered key value = if value.fields?.isSome = true then none else some value := by
  rcases isMetricsKey_exclusive h with ⟨hpile, hpending⟩
  unfold entered
  rw [if_neg hpile, if_neg hpending]
  simp only [h, true_and]

/-- A record under a diagnostic name is emptied. -/
theorem scrubValue_diagnostics {key : PyStr} (h : isMetricsKey key = true) {value : Json}
    (hrecord : value.fields?.isSome = true) : scrubValue key value = .ok (.obj []) := by
  unfold scrubValue
  rw [entered_diagnostics h, if_pos hrecord]
  exact if_neg (isMetricsKey_exclusive h).1

theorem diagnosticsEmptied_closed (key : PyStr) (v w : Json) (h : DiagnosticsEmptied key v w) :
    entered key w = none := by
  rcases h with ⟨hkey, rfl⟩
  rw [entered_diagnostics hkey]
  rfl

/-- Where diagnostics are records, taking one out is not seen. -/
theorem scrub_emptied {a b out : Json} (hrecords : DiagnosticsAreRecords a)
    (h : Rewrites DiagnosticsEmptied a b) (hout : scrub a = .ok out) : scrub b = .ok out := by
  have hplace : ∀ key v w x, Visits a key v → DiagnosticsEmptied key v w →
      scrubValue key v = .ok x → ∃ y, scrubValue key w = .ok y ∧ x = y := by
    rintro key v w x hvisits ⟨hkey, rfl⟩ hx
    rw [scrubValue_diagnostics hkey (hrecords key v hvisits hkey)] at hx
    exact ⟨x, by rw [scrubValue_diagnostics hkey rfl, hx], rfl⟩
  rcases scrub_rewrites onSpecialKeys_diagnosticsEmptied a b out hplace h hout with
    ⟨out', hout', heq | hrewrites⟩
  · rw [hout', heq]
  · rw [hout', hrewrites.eq fun _ _ _ h => h]

/-- Taking diagnostics out leaves records. -/
theorem diagnosticsAreRecords_rewrites {a b : Json} (h : Rewrites DiagnosticsEmptied a b)
    (hrecords : DiagnosticsAreRecords a) : DiagnosticsAreRecords b := by
  intro key w hvisits hkey
  rcases Visits.of_rewrites onSpecialKeys_diagnosticsEmptied diagnosticsEmptied_closed a b h key w
    hvisits with ⟨v, hvisits', rfl | ⟨-, rfl⟩ | hinner⟩
  · exact hrecords key v hvisits' hkey
  · rfl
  · have hkind : v.fields?.isSome = w.fields?.isSome :=
      hinner.sameOutside.congr (fun value => value.fields?.isSome) (fun _ _ => rfl) fun _ _ => rfl
    rw [← hkind]
    exact hrecords key v hvisits' hkey

/-- What the mask of a list or a scalar is. -/
theorem scrub_fields?_eq_none {v x : Json} (hv : v.fields? = none) (hx : scrub v = .ok x) :
    x.fields? = none := by
  cases v with
  | obj fields => cases hv
  | list items =>
      rcases scrub_list_eq_ok.mp hx with ⟨outs, -, rfl⟩
      rfl
  | null | bool _ | int _ | float _ | str _ =>
      rw [scrub_scalar rfl] at hx
      cases hx
      rfl

/-- The place where a diagnostic was taken out, as it is published. -/
def TakenOut (node : Json) (key : PyStr) (x y : Json) : Prop :=
  isMetricsKey key = true ∧ y = .obj [] ∧
    ∃ value, Visits node key value ∧ value.fields? = none ∧ scrub value = .ok x

theorem TakenOut.fields?_eq_none {node : Json} {key : PyStr} {x y : Json}
    (h : TakenOut node key x y) : x.fields? = none := by
  rcases h with ⟨-, -, value, -, hnone, hx⟩
  exact scrub_fields?_eq_none hnone hx

/-- A diagnostic that is no record is published where it stands. -/
theorem exists_diagnostic_seen {a out : Json} (hnot : ¬ DiagnosticsAreRecords a)
    (hout : scrub a = .ok out) : ∃ b out', Rewrites DiagnosticsEmptied a b ∧
      scrub b = .ok out' ∧ Rewrites (TakenOut a) out out' := by
  unfold DiagnosticsAreRecords at hnot
  push Not at hnot
  rcases hnot with ⟨key, value, hvisits, hkey, hvalue⟩
  have hnone : value.fields? = none := by simpa using hvalue
  rcases hvisits.scrubValue_ok out hout with ⟨x, hx⟩
  have hscrub : scrub value = .ok x := by
    rw [← hx]
    refine (scrubValue_of_entered ?_).symm
    rw [entered_diagnostics hkey, if_neg hvalue]
  rcases Visits.visible onSpecialKeys_diagnosticsEmptied hvisits
    (⟨hkey, rfl⟩ : DiagnosticsEmptied key value (.obj [])) hx (scrubValue_diagnostics hkey rfl) out
    hout with ⟨b, out', hstep, hout', hdiffer⟩
  refine ⟨b, out', hstep, hout', hdiffer.mono ?_⟩
  rintro _ _ _ ⟨rfl, rfl, rfl⟩
  exact ⟨hkey, rfl, value, hvisits, hnone, hscrub⟩

end Emptied

/-!
### Actions

An action is masked on its own, and its id is made up if it has none.
-/

section Actions

/-- One place of one action is changed. -/
inductive ActionStep (Φ : PyStr → Json → Json → Prop) : List Fields → List Fields → Prop where
  | intro {before after : List Fields} {action action' : Fields}
      (h : RewritesMembers Φ action action') :
      ActionStep Φ (before ++ action :: after) (before ++ action' :: after)

/-- Setting a member to what it is set to in both tells nothing else apart. -/
theorem eq_of_setL_eq {key : PyStr} {value old : Json} {xs ys : Fields}
    (hxs : Dict.lookupL key xs = some old) (hys : Dict.lookupL key ys = some old)
    (h : Dict.setL key value xs = Dict.setL key value ys) : xs = ys := by
  calc xs = Dict.setL key old (Dict.setL key value xs) := by
        rw [Dict.setL_setL_self, Dict.setL_of_lookupL hxs]
    _ = Dict.setL key old (Dict.setL key value ys) := by rw [h]
    _ = ys := by rw [Dict.setL_setL_self, Dict.setL_of_lookupL hys]

/-- The text of the empty record is that of no list and of no scalar, but for a
    float that is written so. -/
theorem jsonRepr_ne_empty {x : Json} (hnone : x.fields? = none) (hfloat : x ≠ .float "\x7b\x7d") :
    jsonRepr x ≠ jsonRepr (.obj []) := by
  have hempty : jsonRepr (.obj []) = "\x7b\x7d" := by decide
  rw [hempty]
  intro h
  have hlist := congrArg String.toList h
  cases x with
  | null => exact absurd h (by decide)
  | bool b => cases b <;> exact absurd h (by decide)
  | int z =>
      have hplain := Json.toString_int_plain z '\x7b'
      have hmem : '\x7b' ∈ (toString z).toList := by
        rw [show (toString z).toList = ['\x7b', '\x7d'] from hlist]
        simp
      exact absurd (hplain hmem) (by decide)
  | float text => exact hfloat (congrArg Json.float h)
  | str s =>
      simp only [jsonRepr, pyRepr, String.toList_append] at hlist
      split at hlist <;> simp [Char.toString, singleQuote, doubleQuote] at hlist
  | list items => simp [jsonRepr] at hlist
  | obj fields => cases hnone

/-- The action id of a masked action is published as a text. -/
def idAsText (scrubbed : Fields) : Fields :=
  match Dict.lookupL (.text "action_id") scrubbed with
  | some actionId => setMember "action_id" (.str (pyStr actionId)) scrubbed
  | none => scrubbed

theorem maskLegalAction_eq_ok {action masked : Fields} :
    maskLegalAction action = .ok masked ↔
      ∃ scrubbed, scrubMembers action = .ok scrubbed ∧ idAsText scrubbed = masked :=
  Except.map_eq_ok _ _ _

theorem pyStr_of_container {v : Json} (h : isScalar v = false) : pyStr v = .text (jsonRepr v) := by
  cases v <;> first | rfl | cases h

theorem isScalar_of_rewrites {Ψ : PyStr → Json → Json → Prop} {a b : Json} (h : Rewrites Ψ a b) :
    isScalar a = false := by
  cases h <;> rfl

/-- A place that is published differently is seen in the action, also where it is
    part of the action id. -/
theorem idAsText_ne {Ψ : PyStr → Json → Json → Prop}
    (hΨ : ∀ key x y, Ψ key x y → isMetricsKey key = true ∧ jsonRepr x ≠ jsonRepr y)
    {scrubbed scrubbed' : Fields} (h : RewritesMembers Ψ scrubbed scrubbed') :
    idAsText scrubbed ≠ idAsText scrubbed' := by
  have hne : scrubbed ≠ scrubbed' := by
    intro heq
    refine h.rewrites.ne (fun key x y hxy hsame => (hΨ key x y hxy).2 ?_) (congrArg Json.obj heq)
    rw [hsame]
  unfold idAsText
  rcases h.lookup (.text "action_id") with heq | ⟨v, w, hv, hw, hspecial | hinner⟩
  · -- The place is outside of the action id.
    rw [← heq]
    cases hlookup : Dict.lookupL (.text "action_id") scrubbed with
    | none => exact hne
    | some actionId => exact fun hset => hne (eq_of_setL_eq hlookup (heq ▸ hlookup) hset)
  · exact absurd (hΨ _ _ _ hspecial).1 (by decide)
  · rw [hv, hw]
    intro hset
    have hid := congrArg (Dict.lookupL (.text "action_id")) hset
    simp only [setMember, Dict.lookupL_setL_self, Option.some.injEq, Json.str.injEq] at hid
    rw [pyStr_of_container (isScalar_of_rewrites hinner),
      pyStr_of_container (isScalar_of_rewrites hinner.flip), PyStr.text.injEq] at hid
    exact jsonRepr_ne_of_rewrites (fun key x y hxy => (hΨ key x y hxy).2) hinner hid

end Actions

/-!
### The law

A state and the same state with hidden members emptied are published alike exactly where
no diagnostics are anything but an object.
-/

section Hidden

/-- No name that is to be dropped, at any depth. -/
def NoHiddenKey (value : Json) : Prop :=
  ∀ key, HasKey value key → isForbiddenKey key = false ∧ key ∉ deleteKeys

theorem noHiddenKey_of_kept {value : Json} (h : ∀ key, HasKey value key → isKept key = true) :
    NoHiddenKey value := fun key hkey => of_decide_eq_true (h key hkey)

/-- Nothing that is to be hidden is published: no name that is to be dropped, and
    nothing that stands under a diagnostic name, since the same is published
    without it. -/
structure HidesFields (rawState : Fields) (extra : Option Fields) (legalActions : List Fields)
    (out : Fields) (masked : List Fields) : Prop where
  state_keys : NoHiddenKey (.obj out)
  action_keys : ∀ action ∈ masked, NoHiddenKey (.obj action)
  state_diagnostics : ∀ inputs,
    Relation.ReflTransGen (InputStep DiagnosticsEmptied) (rawState, extra) inputs →
      buildMaskedEmulatorDto inputs.1 inputs.2 = .ok out
  action_diagnostics : ∀ actions,
    Relation.ReflTransGen (ActionStep DiagnosticsEmptied) legalActions actions →
      maskLegalActions actions = .ok masked

/-- Taking a diagnostic out raises nothing. -/
theorem scrubMembers_emptied_isOk {fields fields' : Fields}
    (h : RewritesMembers DiagnosticsEmptied fields fields')
    (hok : ∃ outs, scrubMembers fields = .ok outs) : ∃ outs, scrubMembers fields' = .ok outs := by
  rcases hok with ⟨outs, houts⟩
  have hplace : ∀ key v w x, Visits (.obj fields) key v → DiagnosticsEmptied key v w →
      scrubValue key v = .ok x → ∃ y, scrubValue key w = .ok y ∧ True := by
    rintro key v w x - ⟨hkey, rfl⟩ -
    exact ⟨_, scrubValue_diagnostics hkey rfl, trivial⟩
  rcases scrub_rewrites onSpecialKeys_diagnosticsEmptied _ _ _ hplace h.rewrites
    (scrub_obj_eq_ok.mpr ⟨outs, houts, rfl⟩) with ⟨out, hout, -⟩
  rcases scrub_obj_eq_ok.mp hout with ⟨outs', houts', -⟩
  exact ⟨outs', houts'⟩

theorem scrubMembers_emptied {fields fields' outs : Fields}
    (hrecords : DiagnosticsAreRecords (.obj fields))
    (h : RewritesMembers DiagnosticsEmptied fields fields')
    (houts : scrubMembers fields = .ok outs) :
    scrubMembers fields' = .ok outs := by
  have hout := scrub_emptied hrecords h.rewrites (scrub_obj_eq_ok.mpr ⟨outs, houts, rfl⟩)
  rcases scrub_obj_eq_ok.mp hout with ⟨outs', houts', heq⟩
  cases heq
  exact houts'

/-- A step of the inputs, where diagnostics are records. -/
theorem build_step_emptied {inputs inputs' : Fields × Option Fields} {out : Fields}
    (h : InputStep DiagnosticsEmptied inputs inputs')
    (hrecords : DiagnosticsAreRecords (.obj (published inputs.1 inputs.2)))
    (hout : buildMaskedEmulatorDto inputs.1 inputs.2 = .ok out) :
    buildMaskedEmulatorDto inputs'.1 inputs'.2 = .ok out ∧
      DiagnosticsAreRecords (.obj (published inputs'.1 inputs'.2)) := by
  rcases buildMaskedEmulatorDto_eq_ok.mp hout with ⟨hraw, hextra, htwice, hmask⟩
  have hinputs : (∃ outs, scrubMembers inputs'.1 = .ok outs) ∧
      ∃ outs, scrubMembers (inputs'.2.getD []) = .ok outs := by
    cases h with
    | rawState h => exact ⟨scrubMembers_emptied_isOk h hraw, hextra⟩
    | extra h => exact ⟨hraw, scrubMembers_emptied_isOk h hextra⟩
  rw [isTwiceTerminal_step onSpecialKeys_diagnosticsEmptied h] at htwice
  rcases published_step onSpecialKeys_diagnosticsEmptied h with heq | hstep
  · rw [heq] at hmask hrecords
    exact ⟨buildMaskedEmulatorDto_eq_ok.mpr ⟨hinputs.1, hinputs.2, htwice, hmask⟩, hrecords⟩
  · have hmask' := scrubMembers_emptied hrecords hstep hmask
    exact ⟨buildMaskedEmulatorDto_eq_ok.mpr ⟨hinputs.1, hinputs.2, htwice, hmask'⟩,
      diagnosticsAreRecords_rewrites hstep.rewrites hrecords⟩

/-- A diagnostic of a state that is no record is seen. -/
theorem exists_build_step_seen {rawState : Fields} {extra : Option Fields} {out : Fields}
    (hnot : ¬ DiagnosticsAreRecords (.obj (published rawState extra)))
    (hout : buildMaskedEmulatorDto rawState extra = .ok out) :
    ∃ inputs, InputStep DiagnosticsEmptied (rawState, extra) inputs ∧
      buildMaskedEmulatorDto inputs.1 inputs.2 ≠ .ok out := by
  have hmask := scrub_obj_eq_ok.mpr ⟨out, (buildMaskedEmulatorDto_eq_ok.mp hout).2.2.2, rfl⟩
  rcases exists_diagnostic_seen hnot hmask with ⟨b, out', hstep, hout', hdiffer⟩
  rcases hstep.inv with ⟨_, zs, heq, rfl, hmembers⟩ | ⟨_, _, _, _, hlist, -, -⟩
  · cases heq
    rcases exists_of_published_step onSpecialKeys_diagnosticsEmptied hmembers with
      ⟨inputs, hinput, rfl⟩
    refine ⟨inputs, hinput, fun hsame => ?_⟩
    have hmask' := scrub_obj_eq_ok.mpr ⟨out, (buildMaskedEmulatorDto_eq_ok.mp hsame).2.2.2, rfl⟩
    rw [hout', Except.ok.injEq] at hmask'
    refine hdiffer.ne (fun key x y htaken hxy => ?_) hmask'.symm
    have hnone := htaken.fields?_eq_none
    rw [hxy, htaken.2.1] at hnone
    cases hnone
  · cases hlist

/-- A step of the actions, where diagnostics are records. -/
theorem maskLegalActions_step_emptied {actions actions' : List Fields} {masked : List Fields}
    (h : ActionStep DiagnosticsEmptied actions actions')
    (hrecords : ∀ action ∈ actions, DiagnosticsAreRecords (.obj action))
    (hmasked : maskLegalActions actions = .ok masked) :
    maskLegalActions actions' = .ok masked ∧
      ∀ action ∈ actions', DiagnosticsAreRecords (.obj action) := by
  rcases h with ⟨hstep⟩
  rename_i before after action action'
  have hrecord : DiagnosticsAreRecords (.obj action) := hrecords action (by simp)
  constructor
  · unfold maskLegalActions at hmasked ⊢
    rw [Except.mapM_append_eq_ok] at hmasked ⊢
    rcases hmasked with ⟨us, vs, hus, hvs, rfl⟩
    refine ⟨us, vs, hus, ?_, rfl⟩
    rw [List.mapM_cons, Except.bind_eq_ok] at hvs
    rcases hvs with ⟨one, hone, hrest⟩
    rcases maskLegalAction_eq_ok.mp hone with ⟨scrubbed, hscrubbed, hid⟩
    have hone' : maskLegalAction action' = .ok one :=
      maskLegalAction_eq_ok.mpr ⟨scrubbed, scrubMembers_emptied hrecord hstep hscrubbed, hid⟩
    rw [List.mapM_cons, hone']
    exact hrest
  · intro other hmem
    rcases List.mem_append.mp hmem with hmem | hmem
    · exact hrecords other (List.mem_append_left _ hmem)
    · rcases List.mem_cons.mp hmem with rfl | hmem
      · exact diagnosticsAreRecords_rewrites hstep.rewrites hrecord
      · exact hrecords other (by simp [hmem])

/-- A diagnostic of an action that is no record is seen. -/
theorem exists_action_step_seen {legalActions masked : List Fields} {action : Fields}
    (hmem : action ∈ legalActions) (hnot : ¬ DiagnosticsAreRecords (.obj action))
    (hfloats : ∀ key, ¬ Visits (.obj action) key (.float "\x7b\x7d"))
    (hmasked : maskLegalActions legalActions = .ok masked) :
    ∃ actions, ActionStep DiagnosticsEmptied legalActions actions ∧
      maskLegalActions actions ≠ .ok masked := by
  rcases List.append_of_mem hmem with ⟨before, after, rfl⟩
  unfold maskLegalActions at hmasked
  rcases (Except.mapM_append_eq_ok _ _ _ _).mp hmasked with ⟨us, vs, hus, hvs, rfl⟩
  rw [List.mapM_cons, Except.bind_eq_ok] at hvs
  rcases hvs with ⟨one, hone, hrest⟩
  rw [Except.bind_eq_ok] at hrest
  rcases hrest with ⟨rest, hrest, heq⟩
  cases heq
  rcases maskLegalAction_eq_ok.mp hone with ⟨scrubbed, hscrubbed, rfl⟩
  rcases exists_diagnostic_seen hnot (scrub_obj_eq_ok.mpr ⟨scrubbed, hscrubbed, rfl⟩) with
    ⟨b, out', hstep, hout', hdiffer⟩
  rcases hstep.inv with ⟨_, action', heq, rfl, hmembers⟩ | ⟨_, _, _, _, hlist, -, -⟩
  · cases heq
    refine ⟨_, .intro hmembers, fun hsame => ?_⟩
    rcases scrub_obj_eq_ok.mp hout' with ⟨scrubbed', hscrubbed', rfl⟩
    have hone' := maskLegalAction_eq_ok.mpr ⟨scrubbed', hscrubbed', rfl⟩
    -- The other actions are masked as before, so the two would be masked alike.
    have hboth : idAsText scrubbed = idAsText scrubbed' := by
      unfold maskLegalActions at hsame
      rcases (Except.mapM_append_eq_ok _ _ _ _).mp hsame with ⟨us', vs', hus', hvs', heq⟩
      rw [hus, Except.ok.injEq] at hus'
      subst hus'
      rw [List.mapM_cons, hone', hrest] at hvs'
      cases hvs'
      rw [List.append_cancel_left_eq, List.cons.injEq] at heq
      exact heq.1
    rcases hdiffer.inv with ⟨_, _, heq, heq', hplace⟩ | ⟨_, _, _, _, hlist, -, -⟩
    · cases heq
      cases heq'
      refine idAsText_ne (fun key x y htaken => ⟨htaken.1, ?_⟩) hplace hboth
      rw [htaken.2.1]
      refine jsonRepr_ne_empty htaken.fields?_eq_none ?_
      rintro rfl
      rcases htaken.2.2 with ⟨value, hvisits, hnone, hx⟩
      refine hfloats key ?_
      rwa [← (scrub_eq_ok_scalar rfl).mp hx]
    · cases hlist
  · cases hlist

/-- What is to be hidden is hidden exactly if the mask comes to records only under
    the diagnostic names of what is put together and of the actions. -/
theorem masking_hides_fields_iff (rawState : Fields) (extra : Option Fields)
    (legalActions : List Fields) (out : Fields) (masked : List Fields)
    (hfloats : ∀ action ∈ legalActions, ∀ key, ¬ Visits (.obj action) key (.float "\x7b\x7d"))
    (hout : buildMaskedEmulatorDto rawState extra = .ok out)
    (hmasked : maskLegalActions legalActions = .ok masked) :
    HidesFields rawState extra legalActions out masked ↔
      DiagnosticsAreRecords (.obj (published rawState extra)) ∧
        ∀ action ∈ legalActions, DiagnosticsAreRecords (.obj action) := by
  constructor
  -- Diagnostics that are no record are published as they are, so a change in them shows.
  · intro hhides
    constructor
    · by_contra hnot
      rcases exists_build_step_seen hnot hout with ⟨inputs, hstep, hne⟩
      exact hne (hhides.state_diagnostics inputs (.single hstep))
    · intro action hmem
      by_contra hnot
      rcases exists_action_step_seen hmem hnot (hfloats action hmem) hmasked with
        ⟨actions, hstep, hne⟩
      exact hne (hhides.action_diagnostics actions (.single hstep))
  · rintro ⟨hstate, hactions⟩
    -- No hidden name is among those that are kept.
    constructor
    · have hmask := (buildMaskedEmulatorDto_eq_ok.mp hout).2.2.2
      exact noHiddenKey_of_kept fun key => scrubMembers_hasKey hmask
    · intro action hmem
      rcases Except.exists_of_mem_mapM maskLegalAction _ masked hmasked action hmem with
        ⟨raw, -, hraw⟩
      exact noHiddenKey_of_kept fun key => maskLegalAction_hasKey hraw
    -- Along a chain of changes the result stays, and the diagnostics stay records.
    · intro inputs hsteps
      have hinvariant : buildMaskedEmulatorDto inputs.1 inputs.2 = .ok out ∧
          DiagnosticsAreRecords (.obj (published inputs.1 inputs.2)) := by
        induction hsteps with
        | refl => exact ⟨hout, hstate⟩
        | tail _ hstep ih => exact build_step_emptied hstep ih.2 ih.1
      exact hinvariant.1
    · intro actions hsteps
      have hinvariant : maskLegalActions actions = .ok masked ∧
          ∀ action ∈ actions, DiagnosticsAreRecords (.obj action) := by
        induction hsteps with
        | refl => exact ⟨hmasked, hactions⟩
        | tail _ hstep ih => exact maskLegalActions_step_emptied hstep ih.2 ih.1
      exact hinvariant.1

/-- The mask comes to the members of a flat object only. -/
theorem mem_of_visits {fields : Fields} {key : PyStr} {value : Json}
    (hflat : ∀ m ∈ fields, ∀ node ∈ entered m.1 m.2, isScalar node = true)
    (h : Visits (.obj fields) key value) : (key, value) ∈ fields := by
  cases h with
  | member hmem _ => exact hmem
  | inside hmem _ hentered h =>
      have hscalar := hflat _ hmem _ hentered
      cases h <;> cases hscalar

theorem build_metrics {value x : Json} (hx : scrubValue (.text "metrics") value = .ok x) :
    buildMaskedEmulatorDto [member "metrics" value] none = .ok (stamp [member "metrics" x]) := by
  have hkept : isKept (.text "metrics") = true := by decide +kernel
  have hmask : scrubMembers [member "metrics" value] = .ok [member "metrics" x] :=
    scrubMembers_cons_eq_ok.mpr (Or.inr ⟨hkept, x, [], hx, by rw [scrubMembers], rfl⟩)
  have hempty : scrubMembers (Option.getD (none : Option Fields) []) = .ok [] := by
    rw [Option.getD_none, scrubMembers]
  unfold buildMaskedEmulatorDto
  rw [hmask, hempty]
  rfl

/-- Diagnostics in a record are hidden. -/
theorem masking_hides_fields_record :
    HidesFields [member "metrics" (.obj [member "pass" (.int 1)])] none
      [[member "action_id" (.str (.text "end_turn"))]] (stamp [member "metrics" (.obj [])])
      [[member "action_id" (.str (.text "end_turn"))]] := by
  have hmetrics : isMetricsKey (.text "metrics") = true := by decide
  have hactionId : entered (.text "action_id") (.str (.text "end_turn")) =
      some (.str (.text "end_turn")) := by decide +kernel
  have haction : ∀ key value,
      Visits (.obj [member "action_id" (.str (.text "end_turn"))]) key value →
        (key, value) = member "action_id" (.str (.text "end_turn")) := by
    intro key value h
    exact List.mem_singleton.mp (mem_of_visits (by decide +kernel) h)
  refine (masking_hides_fields_iff _ _ _ _ _ ?_ ?_ ?_).mpr ⟨?_, ?_⟩
  · intro action hmem key h
    cases List.mem_singleton.mp hmem
    cases haction key _ h
  · exact build_metrics (scrubValue_diagnostics hmetrics rfl)
  · have hkept : isKept (.text "action_id") = true := by decide +kernel
    have hscrubbed : scrubMembers [member "action_id" (.str (.text "end_turn"))] =
        .ok [member "action_id" (.str (.text "end_turn"))] := by
      refine scrubMembers_cons_eq_ok.mpr
        (Or.inr ⟨hkept, .str (.text "end_turn"), [], ?_, by rw [scrubMembers], rfl⟩)
      rw [scrubValue_of_entered hactionId, scrub_scalar rfl]
    have hone : maskLegalAction [member "action_id" (.str (.text "end_turn"))] =
        .ok [member "action_id" (.str (.text "end_turn"))] :=
      maskLegalAction_eq_ok.mpr ⟨_, hscrubbed, rfl⟩
    unfold maskLegalActions
    rw [List.mapM_cons, hone]
    rfl
  · intro key value hvisits hkey
    have hmem : (key, value) ∈ published
      [member "metrics" (.obj [member "pass" (.int 1)])] none := by
      exact mem_of_visits (by decide +kernel) hvisits
    have hall : ∀ m ∈ published [member "metrics" (.obj [member "pass" (.int 1)])] none,
        isMetricsKey m.1 = true → m.2.fields?.isSome = true := by decide +kernel
    exact hall _ hmem hkey
  · intro action hmem key value hvisits hkey
    cases List.mem_singleton.mp hmem
    cases haction key value hvisits
    exact absurd hkey (by decide)

/-- Diagnostics in a list are published. -/
theorem masking_shows_metrics :
    ¬ ∀ rawState extra legalActions out masked,
      buildMaskedEmulatorDto rawState extra = .ok out →
      maskLegalActions legalActions = .ok masked →
        HidesFields rawState extra legalActions out masked := by
  intro hhides
  have hlist : entered (.text "metrics") (.list [.int 1]) = some (.list [.int 1]) := by
    decide +kernel
  have hone : scrub (.int 1) = .ok (.int 1) := scrub_scalar rfl
  have hscrub : scrub (.list [.int 1]) = .ok (.list [.int 1]) := by
    refine scrub_list_eq_ok.mpr ⟨[.int 1], ?_, rfl⟩
    rw [List.mapM_cons, hone]
    rfl
  have hout : buildMaskedEmulatorDto [member "metrics" (.list [.int 1])] none =
      .ok (stamp [member "metrics" (.list [.int 1])]) :=
    build_metrics (by rw [scrubValue_of_entered hlist, hscrub])
  have hnot : ¬ DiagnosticsAreRecords
      (.obj (published [member "metrics" (.list [.int 1])] none)) := by
    intro hrecords
    have hvisits : Visits (.obj (published [member "metrics" (.list [.int 1])] none))
        (.text "metrics") (.list [.int 1]) := .member (by decide +kernel) (by decide +kernel)
    exact absurd (hrecords _ _ hvisits (by decide)) (by decide)
  rcases exists_build_step_seen hnot hout with ⟨inputs, hstep, hne⟩
  have hmasked : maskLegalActions [] = .ok [] := rfl
  exact hne ((hhides _ none [] _ [] hout hmasked).state_diagnostics inputs (.single hstep))

end Hidden

end Api

end STS2RL
