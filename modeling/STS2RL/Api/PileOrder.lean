import STS2RL.Api.MaskedState
import STS2RL.Api.ReprText
import Mathlib.Logic.Relation

/-!
# The Order of a Pile Behind the Mask

A pile is published as a multiset. Its cards are grouped by their identity, and of
each group the first card is shown. So the order of a pile stays hidden as long as
cards of the same identity are published alike: then the groups are the cards, the
sort keys tell them apart, and nothing of the order is left. Where two cards of
the same identity are published differently, which of them comes first decides
what is shown.

## Main definitions

* `PilePermuted`: One pile of a state or its extra has another order.
* `UniformPiles`: Cards of one identity are published alike.

## Theorems

* `multisetOf_perm`: A uniform pile hides its order.
* `multisetOf_ne`: A pile that is not uniform does not.
* `masking_hides_order_iff`: When the order of the piles stays hidden.
-/

namespace STS2RL

namespace Api

open STS2RL.Json

/-!
### Piles

A pile in another order has the same counts, unless two cards of it count alike and are
published differently.
-/

section Piles

/-- A pile in another order. -/
def PilePermuted (key : PyStr) (v w : Json) : Prop :=
  key ∈ multisetPileKeys ∧ ∃ xs ys, v = .list xs ∧ w = .list ys ∧ xs.Perm ys

theorem onSpecialKeys_pilePermuted : OnSpecialKeys PilePermuted := by
  intro key v w h
  unfold isSpecialKey
  exact decide_eq_true (Or.inl h.1)

theorem pilePermuted_closed (key : PyStr) (v w : Json) (h : PilePermuted key v w) :
    entered key w = none := if_pos h.1

theorem scrubValue_pile {key : PyStr} (hkey : key ∈ multisetPileKeys) (v : Json) :
    scrubValue key v = multisetOf v := by
  unfold scrubValue entered
  rw [if_pos hkey]
  exact if_pos hkey

/-- The cards of a permuted pile. -/
theorem readPile_perm {xs ys : List Json} (h : xs.Perm ys) {cards : List PublicCard}
    (hread : readPile xs = .ok cards) : ∃ cards', readPile ys = .ok cards' ∧ cards.Perm cards' :=
  Except.mapM_perm readCard (h.filterMap countedEntry) cards hread

/-- The parts of a card that was read are scalars. -/
theorem isScalar_of_mem_readPile {pile : List Json} {cards : List PublicCard}
    (hread : readPile pile = .ok cards) : ∀ card ∈ cards, ∀ part ∈ card.identityKey,
      isScalar part = true := by
  intro card hcard
  rcases Except.exists_of_mem_mapM readCard _ cards hread card hcard with ⟨entry, -, hentry⟩
  rcases readCard_eq_ok.mp hentry with ⟨_, _, -, -, -, hscalar⟩
  exact hscalar

/-- The sort key of a card determines its identity. -/
theorem identity_eq_of_sortKey_eq {c d : PublicCard}
    (hc : ∀ part ∈ c.identityKey, isScalar part = true)
    (hd : ∀ part ∈ d.identityKey, isScalar part = true) (h : c.sortKey = d.sortKey) :
    c.identity = d.identity := by
  have hkeys : ∀ ps qs : List Json, (∀ p ∈ ps, isScalar p = true) → (∀ q ∈ qs, isScalar q = true) →
      (ps.map fun part => typeName part ++ ":" ++ jsonRepr part) =
        (qs.map fun part => typeName part ++ ":" ++ jsonRepr part) → ps = qs := by
    intro ps
    induction ps with
    | nil =>
        intro qs _ _ hmap
        exact (List.map_eq_nil_iff.mp hmap.symm).symm
    | cons p ps ih =>
        intro qs hps hqs hmap
        cases qs with
        | nil => cases hmap
        | cons q qs =>
            rw [List.map_cons, List.map_cons, List.cons.injEq] at hmap
            rw [taggedRepr_inj (hps p List.mem_cons_self) (hqs q List.mem_cons_self) hmap.1,
              ih qs (fun r hr => hps r (List.mem_cons_of_mem _ hr))
                (fun r hr => hqs r (List.mem_cons_of_mem _ hr)) hmap.2]
  unfold PublicCard.identity
  rw [hkeys _ _ hc hd h]

/-- Cards of one identity are published alike. -/
def Uniform (cards : List PublicCard) : Prop :=
  ∀ c ∈ cards, ∀ d ∈ cards, c.identity = d.identity → c = d

/-- The counts of uniform cards do not depend on their order. -/
theorem sortedTally_perm {cards cards' : List PublicCard} (huniform : Uniform cards)
    (hscalar : ∀ card ∈ cards, ∀ part ∈ card.identityKey, isScalar part = true)
    (h : cards.Perm cards') : sortedTally cards = sortedTally cards' := by
  have : Std.Total fun a b : PublicCard × Nat => a.1.sortKey ≤ b.1.sortKey :=
    ⟨fun a b => le_total a.1.sortKey b.1.sortKey⟩
  have : IsTrans (PublicCard × Nat) fun a b => a.1.sortKey ≤ b.1.sortKey :=
    ⟨fun _ _ _ hab hbc => le_trans hab hbc⟩
  refine Tally.insertionSort_perm ?_ (Tally.tally_perm huniform h)
  rintro ⟨c, n⟩ hc ⟨d, m⟩ hd hcd hdc
  rw [Tally.mem_tally_iff] at hc hd
  have hcmem := List.mem_of_find?_eq_some hc.1
  have hdmem := List.mem_of_find?_eq_some hd.1
  have hidentity := identity_eq_of_sortKey_eq (hscalar c hcmem) (hscalar d hdmem)
    (le_antisymm hcd hdc)
  have hcards := huniform c hcmem d hdmem hidentity
  subst hcards
  rw [hc.2, hd.2]

/-- A uniform pile hides its order. -/
theorem multisetOf_perm {xs ys : List Json} (h : xs.Perm ys) {x : Json}
    (huniform : ∀ cards, readPile xs = .ok cards → Uniform cards)
    (hx : multisetOf (.list xs) = .ok x) : multisetOf (.list ys) = .ok x := by
  unfold multisetOf at hx ⊢
  rcases (Except.map_eq_ok _ _ _).mp hx with ⟨cards, hcards, rfl⟩
  rcases readPile_perm h hcards with ⟨cards', hcards', hperm⟩
  dsimp only
  rw [hcards', sortedTally_perm (huniform cards hcards) (isScalar_of_mem_readPile hcards) hperm]
  rfl

/-- A record shows its card. -/
theorem record_inj {c d : PublicCard} {n m : Nat} (h : c.record n = d.record m) : c = d := by
  rcases c with ⟨_, _, _, _, _, _, _, _, _, enchantment⟩
  rcases d with ⟨_, _, _, _, _, _, _, _, _, enchantment'⟩
  have henchantment : ∀ e e' : Option (Json × Json × Json),
      PublicCard.publicEnchantment ⟨.null, .null, .null, .null, .null, false, 0, .null, .null, e⟩ =
        PublicCard.publicEnchantment ⟨.null, .null, .null, .null, .null, false,
          0, .null, .null, e'⟩ →
      e = e' := by
    intro e e' he
    cases e with
    | none =>
        cases e' with
        | none => rfl
        | some triple => cases he
    | some triple =>
        cases e' with
        | none => cases he
        | some triple' =>
            simp only [PublicCard.publicEnchantment, member, Json.obj.injEq, List.cons.injEq,
              Prod.mk.injEq, true_and, and_true] at he
            rcases triple with ⟨_, _, _⟩
            rcases triple' with ⟨_, _, _⟩
            simp_all
  simp only [PublicCard.record, member, Json.obj.injEq, List.cons.injEq, Prod.mk.injEq, true_and,
    and_true, Json.bool.injEq, Json.int.injEq] at h
  rcases h with ⟨rfl, rfl, rfl, rfl, rfl, rfl, rfl, rfl, rfl, he, -⟩
  rw [henchantment enchantment enchantment' he]

/-- The card of an entry can be brought to the front of its pile. -/
theorem exists_perm_front {pile : List Json} {cards : List PublicCard}
    (hread : readPile pile = .ok cards) {c : PublicCard} (hc : c ∈ cards) :
    ∃ pile' rest, pile.Perm pile' ∧ readPile pile' = .ok (c :: rest) := by
  rcases Except.exists_of_mem_mapM readCard _ cards hread c hc with ⟨entry, hentry, hcard⟩
  rcases List.mem_filterMap.mp hentry with ⟨node, hnode, hcounted⟩
  rcases List.append_of_mem hnode with ⟨before, after, rfl⟩
  rcases readPile_perm List.perm_middle hread with ⟨cards', hread', -⟩
  refine ⟨node :: (before ++ after), ?_⟩
  unfold readPile at hread' ⊢
  rw [List.filterMap_cons, hcounted, List.mapM_cons, hcard] at hread' ⊢
  rcases (Except.bind_eq_ok _ _ _).mp hread' with ⟨c', hc', hrest⟩
  cases hc'
  rcases (Except.bind_eq_ok _ _ _).mp hrest with ⟨rest, hrest, -⟩
  exact ⟨rest, List.perm_middle, by rw [hrest]; rfl⟩

/-- Which of two cards of one identity comes first is seen, if they are published
    differently. -/
theorem multisetOf_ne {xs ys : List Json} {c d : PublicCard} {cs ds : List PublicCard}
    (hidentity : c.identity = d.identity) (hne : c ≠ d) (hxs : readPile xs = .ok (c :: cs))
    (hys : readPile ys = .ok (d :: ds)) {x : Json} (hx : multisetOf (.list xs) = .ok x) :
    multisetOf (.list ys) ≠ .ok x := by
  intro hy
  have hfirst : ∀ (e : PublicCard) (es : List PublicCard),
      (e :: es).find? (fun f => f.identity = e.identity) = some e := fun e es =>
    List.find?_cons_of_pos (decide_eq_true rfl)
  unfold multisetOf at hx hy
  dsimp only at hx hy
  rw [hxs] at hx
  rw [hys] at hy
  rw [← hx] at hy
  have hrecords := Json.list.inj (Except.ok.inj hy)
  -- The record of the first card is in both multisets.
  have hmem : (c, (c :: cs).countP fun f => f.identity = c.identity) ∈
      Tally.tally PublicCard.identity (c :: cs) := Tally.mem_tally_iff.mpr ⟨hfirst c cs, rfl⟩
  have hsorted := (List.mem_insertionSort fun a b : PublicCard × Nat =>
    a.1.sortKey ≤ b.1.sortKey).mpr hmem
  have hrecord : c.record ((c :: cs).countP fun f => f.identity = c.identity) ∈
      (sortedTally (c :: cs)).map fun entry => entry.1.record entry.2 :=
    List.mem_map_of_mem hsorted
  rw [← hrecords] at hrecord
  rcases List.mem_map.mp hrecord with ⟨⟨e, n⟩, he, heq⟩
  have hec : e = c := record_inj heq
  subst hec
  have htally := (List.mem_insertionSort fun a b : PublicCard × Nat =>
    a.1.sortKey ≤ b.1.sortKey).mp he
  have hfound := (Tally.mem_tally_iff.mp htally).1
  rw [hidentity, hfirst d ds, Option.some.injEq] at hfound
  exact hne hfound.symm

end Piles

/-!
### Hiding the order

A state hides the order of its piles exactly where it cannot be read or each of its piles
is uniform.
-/

section Hiding

/-- Every card that the mask comes to in a pile can be counted. -/
def Readable (node : Json) : Prop :=
  ∀ key pile, Visits node key (.list pile) → key ∈ multisetPileKeys →
    ∃ cards, readPile pile = .ok cards

/-- In every pile that the mask comes to, cards of one identity are published alike. -/
def UniformPiles (node : Json) : Prop :=
  ∀ key pile cards, Visits node key (.list pile) → key ∈ multisetPileKeys →
    readPile pile = .ok cards → Uniform cards

/-- Whatever the order of the piles, the same is published, or the mask raises. -/
def HidesPileOrder (rawState : Fields) (extra : Option Fields) : Prop :=
  ∀ rawState' extra',
    Relation.ReflTransGen (InputStep PilePermuted) (rawState, extra) (rawState', extra') →
    (buildMaskedEmulatorDto rawState' extra').toOption =
      (buildMaskedEmulatorDto rawState extra).toOption

theorem scrubMembers_isOk {fields : Fields}
    (h : ∀ key value, (key, value) ∈ fields → isKept key = true →
      ∃ x, scrubValue key value = .ok x) :
    ∃ outs, scrubMembers fields = .ok outs := by
  induction fields with
  | nil => exact ⟨[], by rw [scrubMembers]⟩
  | cons m rest ih =>
      rcases m with ⟨key, value⟩
      rcases ih fun k v hmem => h k v (List.mem_cons_of_mem _ hmem) with ⟨outs, houts⟩
      by_cases hkept : isKept key = true
      · rcases h key value List.mem_cons_self hkept with ⟨x, hx⟩
        exact ⟨_, scrubMembers_cons_eq_ok.mpr (Or.inr ⟨hkept, x, outs, hx, houts, rfl⟩)⟩
      · exact ⟨outs, scrubMembers_cons_eq_ok.mpr
          (Or.inl ⟨Bool.not_eq_true _ ▸ hkept, houts⟩)⟩

/-- The mask of a value raises for the cards in its piles only. -/
theorem scrub_isOk_iff (node : Json) : (∃ out, scrub node = .ok out) ↔ Readable node := by
  -- The mask reads every pile it comes to, and raises only there.
  constructor
  · rintro ⟨out, hout⟩ key pile hvisits hkey
    rcases hvisits.scrubValue_ok out hout with ⟨x, hx⟩
    rw [scrubValue_pile hkey] at hx
    rcases (Except.map_eq_ok _ _ _).mp hx with ⟨cards, hcards, -⟩
    exact ⟨cards, hcards⟩
  -- Conversely, the induction is along the walk.
  · induction node using scrub_induction with
    | hscalar node hscalar => exact fun _ => ⟨node, scrub_scalar hscalar⟩
    | hlist items ih =>
        intro hreadable
        rcases Except.mapM_isOk scrub items fun item hmem =>
          ih item hmem fun key pile hvisits => hreadable key pile (.item hmem hvisits) with
          ⟨outs, houts⟩
        exact ⟨.list outs, scrub_list_eq_ok.mpr ⟨outs, houts, rfl⟩⟩
    | hobj fields ih =>
        intro hreadable
        have hmembers : ∀ key value, (key, value) ∈ fields → isKept key = true →
            ∃ x, scrubValue key value = .ok x := by
          intro key value hmem hkept
          cases hentered : entered key value with
          | some node =>
              rw [scrubValue_of_entered hentered]
              exact ih key value hmem node hentered fun k pile hvisits =>
                hreadable k pile (.inside hmem hkept hentered hvisits)
          | none =>
              unfold scrubValue
              rw [hentered]
              by_cases hpile : key ∈ multisetPileKeys
              · dsimp only
                rw [if_pos hpile]
                cases value with
                | list pile =>
                    rcases hreadable key pile (.member hmem hkept) hpile with ⟨cards, hcards⟩
                    exact ⟨_, (Except.map_eq_ok _ _ _).mpr ⟨cards, hcards, rfl⟩⟩
                | null | bool _ | int _ | float _ | str _ | obj _ => exact ⟨.list [], rfl⟩
              · exact ⟨.obj [], if_neg hpile⟩
        rcases scrubMembers_isOk hmembers with ⟨outs, houts⟩
        exact ⟨.obj outs, scrub_obj_eq_ok.mpr ⟨outs, houts, rfl⟩⟩

theorem scrubMembers_isOk_iff (fields : Fields) :
    (∃ outs, scrubMembers fields = .ok outs) ↔ Readable (.obj fields) := by
  rw [← scrub_isOk_iff]
  constructor
  · rintro ⟨outs, houts⟩
    exact ⟨.obj outs, scrub_obj_eq_ok.mpr ⟨outs, houts, rfl⟩⟩
  · rintro ⟨out, hout⟩
    rcases scrub_obj_eq_ok.mp hout with ⟨outs, houts, -⟩
    exact ⟨outs, houts⟩

/-- When a state is published at all. -/
theorem buildMaskedEmulatorDto_isOk_iff (rawState : Fields) (extra : Option Fields) :
    (∃ out, buildMaskedEmulatorDto rawState extra = .ok out) ↔
      Readable (.obj rawState) ∧ Readable (.obj (extra.getD [])) ∧
        ¬ isTwiceTerminal rawState extra := by
  rw [← scrubMembers_isOk_iff, ← scrubMembers_isOk_iff]
  constructor
  · rintro ⟨out, hout⟩
    rcases buildMaskedEmulatorDto_eq_ok.mp hout with ⟨hraw, hextra, htwice, -⟩
    exact ⟨hraw, hextra, htwice⟩
  · rintro ⟨⟨masked, hmasked⟩, ⟨maskedExtra, hextra⟩, htwice⟩
    exact ⟨_, buildMaskedEmulatorDto_eq_ok.mpr ⟨⟨masked, hmasked⟩, ⟨maskedExtra, hextra⟩, htwice,
      scrubMembers_stamp (scrubMembers_closeTerminal (scrubMembers_updateFields hextra hmasked))⟩⟩

/-- A pile in another order can be counted as well. -/
theorem readable_rewrites {a b : Json} (h : Rewrites PilePermuted a b) (hreadable : Readable a) :
    Readable b := by
  rw [← scrub_isOk_iff] at hreadable ⊢
  rcases hreadable with ⟨out, hout⟩
  have hplace : ∀ key v w x, Visits a key v → PilePermuted key v w → scrubValue key v = .ok x →
      ∃ y, scrubValue key w = .ok y ∧ True := by
    rintro key v w x - ⟨hkey, xs, ys, rfl, rfl, hperm⟩ hx
    rw [scrubValue_pile hkey] at hx ⊢
    rcases (Except.map_eq_ok _ _ _).mp hx with ⟨cards, hcards, -⟩
    rcases readPile_perm hperm hcards with ⟨cards', hcards', -⟩
    exact ⟨_, (Except.map_eq_ok _ _ _).mpr ⟨cards', hcards', rfl⟩, trivial⟩
  rcases scrub_rewrites onSpecialKeys_pilePermuted a b out hplace h hout with ⟨out', hout', -⟩
  exact ⟨out', hout'⟩

theorem uniform_perm {cards cards' : List PublicCard} (h : cards.Perm cards')
    (huniform : Uniform cards) : Uniform cards' := fun c hc d hd =>
  huniform c (h.mem_iff.mpr hc) d (h.mem_iff.mpr hd)

/-- The piles stay uniform whatever their order. -/
theorem uniformPiles_rewrites {a b : Json} (h : Rewrites PilePermuted a b)
    (huniform : UniformPiles a) : UniformPiles b := by
  intro key pile cards hvisits hkey hcards
  rcases Visits.of_rewrites onSpecialKeys_pilePermuted pilePermuted_closed a b h key _ hvisits with
    ⟨v, hvisits', rfl | ⟨-, xs, ys, rfl, heq, hperm⟩ | hinner⟩
  · exact huniform key pile cards hvisits' hkey hcards
  · cases heq
    rcases readPile_perm hperm.symm hcards with ⟨cards', hcards', hcardsPerm⟩
    exact uniform_perm hcardsPerm.symm (huniform key xs cards' hvisits' hkey hcards')
  · -- A step inside of an entry is not seen by the cards.
    rcases hinner.flip.inv with ⟨_, _, hobj, -, -⟩ | ⟨before, x, y, after, heq, rfl, hitem⟩
    · cases hobj
    · cases heq
      exact huniform key _ cards hvisits' hkey
        (readPile_rewrites onSpecialKeys_pilePermuted.flip hitem hcards)

theorem pilePermuted_symm (key : PyStr) (v w : Json) (h : PilePermuted key w v) :
    PilePermuted key v w := by
  rcases h with ⟨hkey, xs, ys, rfl, rfl, hperm⟩
  exact ⟨hkey, ys, xs, rfl, rfl, hperm.symm⟩

instance : Std.Symm (InputStep PilePermuted) := by
  refine ⟨fun inputs inputs' h => ?_⟩
  cases h with
  | rawState h =>
      rcases h.flip.place with ⟨before, key, v, w, after, rfl, rfl, hplace⟩
      exact .rawState (.intro (hplace.imp (pilePermuted_symm _ _ _)
        (Rewrites.mono pilePermuted_symm)))
  | extra h =>
      rcases h.flip.place with ⟨before, key, v, w, after, rfl, rfl, hplace⟩
      exact .extra (.intro (hplace.imp (pilePermuted_symm _ _ _) (Rewrites.mono pilePermuted_symm)))

/-- Whether anything is published does not depend on the order of the piles. -/
theorem build_step_isOk {inputs inputs' : Fields × Option Fields}
    (h : InputStep PilePermuted inputs inputs')
    (hok : ∃ out, buildMaskedEmulatorDto inputs.1 inputs.2 = .ok out) :
    ∃ out, buildMaskedEmulatorDto inputs'.1 inputs'.2 = .ok out := by
  rw [buildMaskedEmulatorDto_isOk_iff] at hok ⊢
  rcases hok with ⟨hraw, hextra, htwice⟩
  rw [isTwiceTerminal_step onSpecialKeys_pilePermuted h] at htwice
  cases h with
  | rawState h => exact ⟨readable_rewrites h.rewrites hraw, hextra, htwice⟩
  | extra h => exact ⟨hraw, readable_rewrites h.rewrites hextra, htwice⟩

/-- Uniform piles are published the same in another order. -/
theorem build_step_uniform {inputs inputs' : Fields × Option Fields}
    (h : InputStep PilePermuted inputs inputs') {out : Fields}
    (hout : buildMaskedEmulatorDto inputs.1 inputs.2 = .ok out)
    (huniform : UniformPiles (.obj (published inputs.1 inputs.2))) :
    buildMaskedEmulatorDto inputs'.1 inputs'.2 = .ok out ∧
      UniformPiles (.obj (published inputs'.1 inputs'.2)) := by
  -- A reordered pile is read as before, so the second result exists.
  rcases build_step_isOk h ⟨out, hout⟩ with ⟨out', hout'⟩
  -- The change is in a part that is not published, or in one that is.
  rcases published_step onSpecialKeys_pilePermuted h with heq | hstep
  · rw [heq] at huniform
    refine ⟨?_, huniform⟩
    have hmask := (buildMaskedEmulatorDto_eq_ok.mp hout).2.2.2
    have hmask' := (buildMaskedEmulatorDto_eq_ok.mp hout').2.2.2
    rw [heq, hmask', Except.ok.injEq] at hmask
    rw [hout', hmask]
  · refine ⟨?_, uniformPiles_rewrites hstep.rewrites huniform⟩
    have hmask := (buildMaskedEmulatorDto_eq_ok.mp hout).2.2.2
    have hmask' := (buildMaskedEmulatorDto_eq_ok.mp hout').2.2.2
    -- At a pile with equal cards only, the order makes no difference to the records.
    have hplace : ∀ key v w x, Visits (.obj (published inputs.1 inputs.2)) key v →
        PilePermuted key v w → scrubValue key v = .ok x →
        ∃ y, scrubValue key w = .ok y ∧ x = y := by
      rintro key v w x hvisits ⟨hkey, xs, ys, rfl, rfl, hperm⟩ hx
      rw [scrubValue_pile hkey] at hx ⊢
      exact ⟨x, multisetOf_perm hperm (fun cards => huniform key xs cards hvisits hkey) hx, rfl⟩
    rcases scrub_rewrites onSpecialKeys_pilePermuted _ _ _ hplace hstep.rewrites
      (scrub_obj_eq_ok.mpr ⟨out, hmask, rfl⟩) with ⟨masked, hmasked, hrel⟩
    have heq : Json.obj out = masked := hrel.elim id fun hrewrites => hrewrites.eq fun _ _ _ h => h
    rcases scrub_obj_eq_ok.mp hmasked with ⟨outs, houts, rfl⟩
    rw [hmask', Except.ok.injEq] at houts
    cases heq
    rw [hout', houts]

/-- A pile that is not uniform shows its order. -/
theorem exists_order_seen {rawState : Fields} {extra : Option Fields} {out : Fields}
    (hout : buildMaskedEmulatorDto rawState extra = .ok out)
    (hnot : ¬ UniformPiles (.obj (published rawState extra))) :
    ∃ inputs', InputStep PilePermuted (rawState, extra) inputs' ∧
      buildMaskedEmulatorDto inputs'.1 inputs'.2 ≠ .ok out := by
  unfold UniformPiles Uniform at hnot
  push Not at hnot
  rcases hnot with ⟨key, pile, cards, hvisits, hkey, hcards, c, hc, d, hd, hidentity, hne⟩
  rcases exists_perm_front hcards hc with ⟨pileC, cs, hpermC, hreadC⟩
  rcases exists_perm_front hcards hd with ⟨pileD, ds, hpermD, hreadD⟩
  have hmask := scrub_obj_eq_ok.mpr
    ⟨out, (buildMaskedEmulatorDto_eq_ok.mp hout).2.2.2, rfl⟩
  rcases hvisits.scrubValue_ok _ hmask with ⟨x, hx⟩
  rw [scrubValue_pile hkey] at hx
  -- One of the two orders is counted differently.
  have hother : ∃ pile' y, pile.Perm pile' ∧ multisetOf (.list pile') = .ok y ∧ y ≠ x := by
    have hreadable : ∀ pile' cards', readPile pile' = .ok cards' →
        ∃ y, multisetOf (.list pile') = .ok y := fun pile' cards' hread =>
      ⟨_, (Except.map_eq_ok _ _ _).mpr ⟨cards', hread, rfl⟩⟩
    rcases hreadable pileC _ hreadC with ⟨y, hy⟩
    by_cases hyx : y = x
    · rcases hreadable pileD _ hreadD with ⟨z, hz⟩
      refine ⟨pileD, z, hpermD, hz, fun hzx => ?_⟩
      refine multisetOf_ne hidentity hne hreadC hreadD hy ?_
      rw [hz, hzx, hyx]
    · exact ⟨pileC, y, hpermC, hy, hyx⟩
  rcases hother with ⟨pile', y, hperm, hy, hyx⟩
  rcases Visits.visible onSpecialKeys_pilePermuted hvisits
    (⟨hkey, pile, pile', rfl, rfl, hperm⟩ : PilePermuted key (.list pile) (.list pile'))
    ((scrubValue_pile hkey _).trans hx) ((scrubValue_pile hkey _).trans hy) _ hmask with
    ⟨b, out', hstep, hout', hdiffer⟩
  have houts : Json.obj out ≠ out' := hdiffer.ne fun _ _ _ h => by
    rw [h.2.1, h.2.2]
    exact hyx.symm
  rcases hstep.inv with ⟨_, zs, heq, rfl, hmembers⟩ | ⟨_, _, _, _, hlist, -, -⟩
  · cases heq
    rcases exists_of_published_step onSpecialKeys_pilePermuted hmembers with
      ⟨inputs', hinput, rfl⟩
    refine ⟨inputs', hinput, fun hsame => houts ?_⟩
    have hmask' := scrub_obj_eq_ok.mpr
      ⟨out, (buildMaskedEmulatorDto_eq_ok.mp hsame).2.2.2, rfl⟩
    rw [hout', Except.ok.injEq] at hmask'
    exact hmask'.symm
  · cases hlist

/-- The order of the piles stays hidden exactly if the mask raises, or every pile
    that is published is uniform. -/
theorem masking_hides_order_iff (rawState : Fields) (extra : Option Fields) :
    HidesPileOrder rawState extra ↔
      ¬ (Readable (.obj rawState) ∧ Readable (.obj (extra.getD [])) ∧
        ¬ isTwiceTerminal rawState extra) ∨
      UniformPiles (.obj (published rawState extra)) := by
  rw [← buildMaskedEmulatorDto_isOk_iff]
  constructor
  · intro hhides
    by_cases hok : ∃ out, buildMaskedEmulatorDto rawState extra = .ok out
    · rcases hok with ⟨out, hout⟩
      refine Or.inr ?_
      by_contra hnot
      rcases exists_order_seen hout hnot with ⟨⟨raw', extra'⟩, hstep, hne⟩
      have hsame := hhides raw' extra' (.single hstep)
      rw [hout] at hsame
      exact hne ((Except.toOption_eq_some _ _).mp hsame)
    · exact Or.inl hok
  · intro hcondition raw' extra' hsteps
    -- Along the steps it stays as it is whether anything is published.
    have hforward : ∀ {a b : Fields × Option Fields},
        Relation.ReflTransGen (InputStep PilePermuted) a b →
        (∃ out, buildMaskedEmulatorDto a.1 a.2 = .ok out) →
        ∃ out, buildMaskedEmulatorDto b.1 b.2 = .ok out := by
      intro a b hab hok
      induction hab with
      | refl => exact hok
      | tail _ hstep ih => exact build_step_isOk hstep ih
    by_cases hok : ∃ out, buildMaskedEmulatorDto rawState extra = .ok out
    · rcases hcondition with hnot | huniform
      · exact absurd hok hnot
      · rcases hok with ⟨out, hout⟩
        have hinvariant : ∀ {b : Fields × Option Fields},
            Relation.ReflTransGen (InputStep PilePermuted) (rawState, extra) b →
            buildMaskedEmulatorDto b.1 b.2 = .ok out ∧ UniformPiles (.obj (published b.1 b.2)) := by
          intro b hb
          induction hb with
          | refl => exact ⟨hout, huniform⟩
          | tail _ hstep ih => exact build_step_uniform hstep ih.1 ih.2
        rw [(hinvariant hsteps).1, hout]
    · have hnot : ¬ ∃ out, buildMaskedEmulatorDto raw' extra' = .ok out := by
        intro hok'
        exact hok (hforward (symm hsteps) hok')
      have hnone : ∀ {r e}, (¬ ∃ out, buildMaskedEmulatorDto r e = .ok out) →
          (buildMaskedEmulatorDto r e).toOption = none := by
        intro r e h
        cases hb : buildMaskedEmulatorDto r e with
        | error exc => rfl
        | ok out => exact absurd ⟨out, hb⟩ h
      rw [hnone hnot, hnone hok]

/-- A card without enchantment. -/
def plainStrike : Json := .obj [member "id" (.str (.text "STRIKE"))]

/-- The same card with an enchantment of nothing. -/
def blankStrike : Json :=
  .obj [member "id" (.str (.text "STRIKE")), member "enchantment" (.obj [])]

theorem build_drawPile {pile : List Json} {x : Json} (h : multisetOf (.list pile) = .ok x) :
    buildMaskedEmulatorDto [member "drawPile" (.list pile)] none =
      .ok (stamp [member "drawPile" x]) := by
  have hkept : isKept (.text "drawPile") = true := by decide
  have hmask : scrubMembers [member "drawPile" (.list pile)] = .ok [member "drawPile" x] := by
    refine scrubMembers_cons_eq_ok.mpr (Or.inr ⟨hkept, x, [], ?_, by rw [scrubMembers], rfl⟩)
    rw [scrubValue_pile (by decide), h]
  have hempty : scrubMembers (Option.getD (none : Option Fields) []) = .ok [] := by
    rw [Option.getD_none, scrubMembers]
  unfold buildMaskedEmulatorDto
  rw [hmask, hempty]
  rfl

/-- Two strikes of one identity, and which of them is on top is seen. -/
theorem masking_shows_order :
    ¬ ∀ rawState extra, HidesPileOrder rawState extra := by
  intro hhides
  have hplain : multisetOf (.list [plainStrike, blankStrike]) =
      .ok (.list [PublicCard.record ⟨.str (.text "STRIKE"), .null, .null, .null, .null, false, 0,
        .null, .null, none⟩ 2]) := by decide +kernel
  have hblank : multisetOf (.list [blankStrike, plainStrike]) =
      .ok (.list [PublicCard.record ⟨.str (.text "STRIKE"), .null, .null, .null, .null, false, 0,
        .null, .null, some (.null, .null, .null)⟩ 2]) := by decide +kernel
  have hstep : InputStep PilePermuted
      ([member "drawPile" (.list [plainStrike, blankStrike])], none)
      ([member "drawPile" (.list [blankStrike, plainStrike])], none) :=
    .rawState ⟨[], _, _, _, [], rfl, rfl, Or.inl ⟨by decide, _, _, rfl, rfl, .swap _ _ []⟩⟩
  have hsame := hhides _ none _ none (.single hstep)
  rw [build_drawPile hplain, build_drawPile hblank] at hsame
  simp only [Except.toOption, Option.some.injEq] at hsame
  have hdiffer : ¬ stamp [member "drawPile" (.list [PublicCard.record ⟨.str (.text "STRIKE"),
        .null, .null, .null, .null, false, 0, .null, .null, some (.null, .null, .null)⟩ 2])] =
      stamp [member "drawPile" (.list [PublicCard.record ⟨.str (.text "STRIKE"), .null, .null,
        .null, .null, false, 0, .null, .null, none⟩ 2])] := by decide +kernel
  exact hdiffer hsame

end Hiding

end Api

end STS2RL
