import STS2RL.Api.InstanceOwnership
import STS2RL.Api.PileOrder
import STS2RL.WholeRun.EventChain

/-!
# Decisions that are Answered Once

A decision of the root has an id with a number that is never given again, and a commit
that is carried out makes another decision the current one. So the id of a decision
that was answered is never accepted again, whatever comes after: no action is committed
under it, and no branch is grown from it.

Entering a combat issues a decision before the game is handed over, and puts the old
one back when the hand-over fails. What is put back was current earlier in the same
request, so it is no younger than the count; that is why the ids are compared with the
numbers issued since a state, and not with the last one.

## Main definitions

* `Dated`: The current decisions are old ones, or were issued since.
* `Completed`: A reply to a request that was carried out.
* `NamesRoot`: A call under a decision of the root.

## Theorems

* `Dated.issue`, `Dated.restore`: What the registry does.
* `calm_dated`, `dated_step`: No request makes another old decision current.
* `commitAction_renews`: A commit that is carried out renews the decision of the root.
* `answered_once`: An answered decision is not accepted again.
-/

namespace STS2RL

namespace WholeRun

open Api (PyError Fields EmulateItem DecisionPointRegistry)

variable {W Φ κ β α γ : Type}

/-- Without the decision of the root. -/
def withoutRoot (old : PyStr → Option PyStr) (branchId : PyStr) : Option PyStr :=
  if branchId = root then none else old branchId

/-!
### The registry

The number of the root's decision goes up with every commit, so a decision of the past has
a smaller one.
-/

section Registry

/-- The decisions that are current are those of `old`, or were issued from the number
    `since` on. -/
structure Dated (since : Nat) (old : PyStr → Option PyStr) (points : DecisionPointRegistry) :
    Prop where
  counter : since ≤ points.counter
  current : ∀ branchId point, points.current? branchId = some point →
    old branchId = some point ∨ ∃ n, since ≤ n ∧ n < points.counter ∧
      point = DecisionPointRegistry.idFor branchId n

variable {since : Nat} {old : PyStr → Option PyStr} {points : DecisionPointRegistry}

theorem Dated.refl (points : DecisionPointRegistry) :
    Dated points.counter points.current? points :=
  ⟨Nat.le_refl _, fun _ _ h => .inl h⟩

theorem Dated.mono {old' : PyStr → Option PyStr} (h : Dated since old points)
    (hold : ∀ branchId point, old branchId = some point → old' branchId = some point) :
    Dated since old' points :=
  ⟨h.counter, fun branchId point hpoint => (h.current branchId point hpoint).imp_left (hold _ _)⟩

theorem withoutRoot_le (old : PyStr → Option PyStr) (branchId point : PyStr)
    (h : withoutRoot old branchId = some point) : old branchId = some point := by
  unfold withoutRoot at h
  split at h
  · cases h
  · exact h

theorem current?_issue (points : DecisionPointRegistry) (branchId other : PyStr) :
    (points.issue branchId).current? other = if other = branchId then
      some (DecisionPointRegistry.idFor branchId points.counter) else points.current? other :=
  Dict.get?_set _ _ _ _

theorem Dated.issue (h : Dated since old points) (branchId : PyStr) :
    Dated since old (points.issue branchId) := by
  refine ⟨Nat.le_succ_of_le h.counter, fun other point hpoint => ?_⟩
  rw [current?_issue] at hpoint
  by_cases hother : other = branchId
  · rw [if_pos hother] at hpoint
    cases hpoint
    exact .inr ⟨points.counter, h.counter, Nat.lt_succ_self _, by rw [hother]⟩
  · rw [if_neg hother] at hpoint
    rcases h.current other point hpoint with hold | ⟨n, hsince, hlt, hid⟩
    · exact .inl hold
    · exact .inr ⟨n, hsince, Nat.lt_succ_of_lt hlt, hid⟩

/-- The root gets another decision. -/
theorem Dated.renew (h : Dated since old points) :
    Dated since (withoutRoot old) (points.issue root) := by
  refine ⟨(h.issue root).counter, fun other point hpoint => ?_⟩
  rcases (h.issue root).current other point hpoint with hold | hnew
  · by_cases hother : other = root
    · rw [current?_issue, if_pos hother] at hpoint
      cases hpoint
      exact .inr ⟨points.counter, h.counter, Nat.lt_succ_self _, by rw [hother]⟩
    · left
      unfold withoutRoot
      rw [if_neg hother]
      exact hold
  · exact .inr hnew

theorem Dated.clear (h : Dated since old points) (branchId : PyStr) :
    Dated since old (points.clear branchId) := by
  refine ⟨h.counter, fun other point hpoint => h.current other point ?_⟩
  rw [Instance.current?_clear] at hpoint
  split at hpoint
  · cases hpoint
  · exact hpoint

/-- What was current earlier is put back. -/
theorem Dated.restore {prior : DecisionPointRegistry} (h : Dated since old points)
    (hprior : Dated since old prior) (hle : prior.counter ≤ points.counter) (branchId : PyStr) :
    Dated since old (points.restoreCurrent branchId (prior.current? branchId)) := by
  rcases hcurrent : prior.current? branchId with _ | restored
  · exact h.clear branchId
  refine ⟨h.counter, fun other point hpoint => ?_⟩
  refine show old other = some point ∨ ∃ n, since ≤ n ∧ n < points.counter ∧ _ from ?_
  unfold DecisionPointRegistry.current? DecisionPointRegistry.restoreCurrent at hpoint
  rw [Dict.get?_set] at hpoint
  by_cases hother : other = branchId
  · rw [if_pos hother] at hpoint
    cases hpoint
    rcases hprior.current branchId restored hcurrent with hold | ⟨n, hsince, hlt, hid⟩
    · exact .inl (hother ▸ hold)
    · exact .inr ⟨n, hsince, hlt.trans_le hle, hother ▸ hid⟩
  · rw [if_neg hother] at hpoint
    exact h.current other point hpoint

/-- The number of a decision of the root is in its id. -/
theorem idFor_root_inj {m n : Nat}
    (h : DecisionPointRegistry.idFor root m = DecisionPointRegistry.idFor root n) : m = n := by
  have htext : "d-" ++ (Api.rootBranchId ++ ("-" ++ Api.pad6 m)) =
      "d-" ++ (Api.rootBranchId ++ ("-" ++ Api.pad6 n)) := PyStr.text.inj h
  have hlists := congrArg String.toList htext
  simp only [String.toList_append] at hlists
  exact Api.pad6_inj (String.toList_inj.mp
    (List.append_cancel_left (List.append_cancel_left (List.append_cancel_left hlists))))

end Registry

namespace Instance

/-!
### The operations

Nothing but a commit renews the decision of the root.
-/

section Operations

variable (env : RunEnv W Φ κ β) {since : Nat} {old : PyStr → Option PyStr}

/-- The decisions of an instance, dated. -/
def DatedIn (since : Nat) (old : PyStr → Option PyStr) (inst : Instance W Φ κ β) : Prop :=
  Dated since old inst.decisionPoints

theorem modifyBook_decisionPoints (branchId : PyStr) (change : Book κ β → Book κ β)
    (inst : Instance W Φ κ β) :
    (modifyBook branchId change inst).decisionPoints = inst.decisionPoints := by
  rcases modifyBook_eq branchId change inst with ⟨bookkeeping, heq⟩
  rw [heq]

theorem DatedIn.modifyBook {inst : Instance W Φ κ β} (h : DatedIn since old inst)
    (branchId : PyStr) (change : Book κ β → Book κ β) :
    DatedIn since old (modifyBook branchId change inst) := by
  unfold DatedIn
  rw [modifyBook_decisionPoints]
  exact h

theorem DatedIn.releaseEventRngReference {inst : Instance W Φ κ β} (h : DatedIn since old inst)
    (branchId : PyStr) : DatedIn since old (releaseEventRngReference branchId inst) := by
  unfold Instance.releaseEventRngReference
  split
  · exact h
  · rename_i plan _
    have hreleased : DatedIn since old { inst with
        eventRngRegistry := inst.eventRngRegistry.releaseBranch plan.hypothesisKey branchId } := h
    exact hreleased.modifyBook branchId _

/-- The changes of the operations on the root and on the records. -/
theorem calm_dated : Calm (DatedIn since old : Instance W Φ κ β → Prop) where
  session _ _ h := h
  rootHistory _ _ h := h
  position _ _ _ _ h := h
  rootBranchLog _ _ _ h := h
  completion _ _ h := h
  nextHolder _ _ h := h
  closed _ _ h := h
  issue _ h := Dated.issue h root
  book _ branchId change _ h := h.modifyBook branchId change
  reference _ branchId h := h.releaseEventRngReference branchId
  retire _ h := List.foldlRecOn (motive := Dated since old) _ _ h fun _ hdated branchId _ =>
    hdated.clear branchId
  reservation _ _ h := h
  registry _ h := h
  phase _ _ _ _ _ h := h
  install _ _ _ h := h
  leave _ h := h

theorem combatBatched_dated :
    CombatBatched (fun _ => (DatedIn since old : Instance W Φ κ β → Prop)) fun _ => True where
  framed _ := calm_dated.framed
  mono _ h := h
  phase _ := calm_dated.phase
  reserve _ _ _ h := h
  register _ _ _ _ _ h := h
  unregister _ branchId _ h := Dated.clear h branchId
  issue _ branchId _ _ h := Dated.issue h branchId
  settle _ branchId change _ _ _ h := h.modifyBook branchId change

theorem eventSettled_dated (branchId : PyStr) :
    EventSettled (DatedIn since old : Instance W Φ κ β → Prop) branchId where
  fault _ h := (h.modifyBook _ _).releaseEventRngReference _
  terminal _ _ h := h.modifyBook _ _
  issue _ h := Dated.issue h branchId
  view _ _ h := h.modifyBook _ _

theorem CommittedChain.decisionPoints {inst after : Instance W Φ κ β}
    {batch : List (PreparedEvent κ β)} (hchain : CommittedChain inst batch after) :
    after.decisionPoints = inst.decisionPoints := by
  induction hchain with
  | nil => rfl
  | cons _ _ _ ih => exact ih

/-- The records speak of known branches, and the decisions are dated. -/
def KnownDated (since : Nat) (old : PyStr → Option PyStr) (inst : Instance W Φ κ β) : Prop :=
  Known inst ∧ DatedIn since old inst

theorem calm_knownDated : Calm (KnownDated since old : Instance W Φ κ β → Prop) :=
  steady_known.toCalm.and calm_dated

theorem emulateEventAction_dated (item : EmulateItem) (simulationOptions : Option Fields) :
    Act.Triple (KnownDated since old) (emulateEventAction env item simulationOptions)
      (fun _ => DatedIn since old) fun _ => DatedIn since old := by
  refine emulateEventAction_triple env calm_knownDated.framed.toIgnoresView (fun _ h => h.2)
    (J := fun _ => DatedIn since old) ?_
    (fun prepared => (eventSettled_dated _).dispatchOne env calm_dated.framed) item
      simulationOptions
  rintro _ prepared ⟨hknown, h⟩ - - inst rfl
  rcases commitPreparedBranch_after hknown.root prepared with ⟨error, hraises⟩ |
    ⟨registry, -, -, hok⟩
  · rw [hraises]
    exact h
  · rw [hok]
    exact h

/-- A batch at an event renews nothing. -/
theorem beamEmulateEventBatch_dated (items : List EmulateItem) :
    Act.Triple (KnownDated since old) (Beam.emulateEventBatch env items)
      (fun _ => DatedIn since old) fun _ => DatedIn since old := by
  refine emulateEventBatch_triple env calm_knownDated.framed.toIgnoresView (fun _ h => h.2)
    (J := fun _ => DatedIn since old) ?_ (fun batch => keeps_dispatchPreparedBatch env
      calm_dated.framed (calm_dated.releaseBranch env) fun _ _ => eventSettled_dated _) items
  rintro _ batch ⟨hknown, h⟩ - - - inst rfl
  rcases commitBatch_after hknown batch with ⟨error, hraises⟩ | ⟨after, hok, hchain⟩
  · rw [hraises]
    exact h
  · rw [hok]
    refine show Dated since old after.decisionPoints from ?_
    rw [hchain.decisionPoints]
    exact h

theorem poison_dated (phase : Option (Phase Φ κ β)) :
    Act.Keeps (DatedIn since old) (poisonCombatTransaction env phase) :=
  (calm_dated.stable env).poisonCombatTransaction env (fun _ _ h => h) phase

/-- The game is handed over to a combat with another decision of the root, or the
    decision of before is put back. -/
theorem enterCombatPhase_renews :
    Act.Triple (DatedIn since old) (enterCombatPhase env)
      (fun _ => DatedIn since (withoutRoot old)) fun _ => DatedIn since old := by
  have hI : Calm (DatedIn since old : Instance W Φ κ β → Prop) := calm_dated
  have hnew : Calm (DatedIn since (withoutRoot old) : Instance W Φ κ β → Prop) := calm_dated
  have hold : ∀ inst : Instance W Φ κ β, DatedIn since (withoutRoot old) inst →
      DatedIn since old inst := fun inst h => Dated.mono h (withoutRoot_le old)
  have hkeeps : ∀ {δ : Type} {m : Op W Φ κ β δ}, Act.Keeps (DatedIn since old) m →
      Act.Triple (DatedIn since old) m (fun _ => DatedIn since old) fun _ => DatedIn since old :=
    fun hm => hm
  unfold enterCombatPhase
  refine .bind (hkeeps keeps_ensureMutable) fun _ => .bind (hkeeps .get) fun _ =>
    .bind (hkeeps (.raiseIf _ _)) fun _ => .bind (hkeeps (hI.framed.strike env _)) fun _ =>
    .bind (hkeeps (hI.framed.onSession _)) fun transfer => ?_
  intro inst h
  rw [Act.get_bind]
  -- From here on the count is no lower than when the decision was read.
  let J : (PyStr → Option PyStr) → Instance W Φ κ β → Prop := fun old s =>
    DatedIn since old s ∧ inst.decisionPoints.counter ≤ s.decisionPoints.counter
  have hcount : ∀ old, Framed (J old) := fun old =>
    { session := fun _ _ h => h
      rootHistory := fun _ _ h => h
      position := fun _ _ _ _ h => h
      nextHolder := fun _ _ h => h
      issue := fun _ h => ⟨Dated.issue h.1 root, Nat.le_succ_of_le h.2⟩
      observe := fun s branchId context h => ⟨h.1.modifyBook branchId _, by
        rw [modifyBook_decisionPoints]
        exact h.2⟩ }
  have hback : Act.Keeps (J old)
      (rollBack env transfer (inst.decisionPoints.current? root) : Op W Φ κ β Unit) :=
    (hcount old).rollBack env transfer _ fun s hs => ⟨Dated.restore hs.1 h hs.2 root, hs.2⟩
  have hpublish : ∀ phase, Act.Triple (J old) (publishPhase env transfer phase)
      (fun _ => J (withoutRoot old)) fun _ => J old := by
    intro phase
    have hrest : ∀ {δ : Type} {m : Op W Φ κ β δ}, Act.Keeps (J (withoutRoot old)) m →
        Act.Triple (J (withoutRoot old)) m (fun _ => J (withoutRoot old)) fun _ => J old :=
      fun hm => hm.conseq (fun _ h => h) (fun _ _ h => h) fun _ s h => ⟨hold s h.1, h.2⟩
    unfold publishPhase
    exact .bind ((hcount old).strike env _) fun _ => .bind (Q := fun _ => J (withoutRoot old))
      (.modify fun s hs => ⟨Dated.renew hs.1, Nat.le_succ_of_le hs.2⟩) fun _ =>
      .bind (hrest ((hcount _).strike env _)) fun _ => hrest ((hcount _).onSession _)
  refine Act.Triple.bind (P := J old) (Q := fun _ => J old) (R := fun _ =>
      DatedIn since (withoutRoot old)) (E := fun _ => DatedIn since old)
    ((Act.Keeps.onError ((hcount old).adoptPhase env) fun _ => hback).conseq (fun _ h => h)
      (fun _ _ h => h) fun _ _ h => h.1) (fun phase => ?_) inst ⟨h, Nat.le_refl _⟩
  refine .bind (Q := fun _ => J (withoutRoot old)) ((Act.Triple.onError (hpublish phase) fun _ =>
    ((hcount old).closeGiven env _).bind fun _ => hback).conseq (fun _ h => h) (fun _ _ h => h)
      fun _ _ h => h.1) fun lease => ?_
  refine Act.Triple.conseq (P := DatedIn since (withoutRoot old))
    (Act.Triple.onError (E := fun _ => DatedIn since old) ?_ fun _ => poison_dated env _)
    (fun _ h => h.1) (fun _ _ h => h) fun _ _ h => h
  have hinstall : Act.Keeps (DatedIn since (withoutRoot old)) (installPhase env phase lease) := by
    refine (hnew.framed.strike env _).bind fun _ => Act.Keeps.get.bind fun _ =>
      (Act.Keeps.ofExcept _).bind fun _ => ?_
    exact .modify fun _ h => h
  exact hinstall.conseq (fun _ h => h) (fun _ _ h => h) fun _ s h => hold s h

end Operations

/-!
### Commits

A commit that completes renews the decision, and one that faults may or may not.
-/

section Commit

variable (env : RunEnv W Φ κ β) {since : Nat} {old : PyStr → Option PyStr}

/-- A reply to a request that was carried out. -/
def Completed (fields : Fields) : Prop :=
  Dict.lookupL (.text "status") fields = some (.str (.text "completed"))

theorem not_completed_faultReply (error : PyError) : ¬ Completed (faultReply error) := by
  unfold Completed faultReply
  rw [Dict.lookupL_cons_self]
  decide

/-- The decision of the root is renewed where a commit was carried out. -/
def RenewedIf (since : Nat) (old : PyStr → Option PyStr) (fields : Fields)
    (inst : Instance W Φ κ β) : Prop :=
  DatedIn since old inst ∧ (Completed fields → DatedIn since (withoutRoot old) inst)

theorem renewed_le (inst : Instance W Φ κ β) (h : DatedIn since (withoutRoot old) inst) :
    DatedIn since old inst :=
  Dated.mono h (withoutRoot_le old)

theorem RenewedIf.of_renewed {inst : Instance W Φ κ β} (fields : Fields)
    (h : DatedIn since (withoutRoot old) inst) : RenewedIf since old fields inst :=
  ⟨renewed_le inst h, fun _ => h⟩

theorem RenewedIf.of_fault {inst : Instance W Φ κ β} (error : PyError)
    (h : DatedIn since old inst) : RenewedIf since old (faultReply error) inst :=
  ⟨h, fun hcompleted => absurd hcompleted (not_completed_faultReply error)⟩

/-- A commit that is recorded renews the decision of the root. -/
theorem recordRootCommit_renews (decisionPointId actionId : PyStr) (releaseBranches : Bool) :
    Act.Triple (DatedIn since old)
      (recordRootCommit env decisionPointId actionId releaseBranches true)
      (fun _ => DatedIn since (withoutRoot old)) fun _ => DatedIn since old := by
  have hI : Stable env (DatedIn since old : Instance W Φ κ β → Prop) := calm_dated.stable env
  have hnew : Framed (DatedIn since (withoutRoot old) : Instance W Φ κ β → Prop) :=
    calm_dated.framed
  have hmodify : Act.Keeps (DatedIn since old) (Act.modify
      (recorded decisionPointId actionId) : Op W Φ κ β Unit) := .modify fun _ h => h
  have hrelease : Act.Keeps (DatedIn since old)
      (Act.onlyIf releaseBranches (cancelAndReleaseAllBranches env)) := .onlyIf fun _ => hI.retire
  have hissue : Act.Triple (DatedIn since old) (Act.onlyIf (true = true) (Act.modify fun inst =>
      { inst with decisionPoints := inst.decisionPoints.issue root }) : Op W Φ κ β Unit)
      (fun _ => DatedIn since (withoutRoot old)) fun _ => DatedIn since old :=
    fun _ h => Dated.renew h
  have hrest : Act.Keeps (DatedIn since (withoutRoot old)) (do
      let view ← rootView env
      rootDecisionReply view : Op W Φ κ β Fields) :=
    (hnew.rootView env).bind fun _ => keeps_rootDecisionReply _
  exact .bind hmodify fun _ => .bind hrelease fun _ => .bind (hI.maybeCaptureMapSnapshot env)
    fun _ => .bind hissue fun _ => hrest.conseq (fun _ h => h) (fun _ _ h => h)
      fun _ inst h => renewed_le inst h

theorem settleCombat_renews (decisionPointId actionId : PyStr) :
    Act.Triple (DatedIn since old) (settleCombat env decisionPointId actionId)
      (fun _ => DatedIn since (withoutRoot old)) fun _ => DatedIn since old := by
  have hI : Stable env (DatedIn since old : Instance W Φ κ β → Prop) := calm_dated.stable env
  refine .bind (Act.Keeps.get (I := DatedIn since old)) fun inst => ?_
  split
  · exact .bind (hI.leaveCombatPhase env (poison_dated env) _) fun _ =>
      recordRootCommit_renews env _ _ _
  · exact recordRootCommit_renews env _ _ _

/-- A commit in a combat. -/
theorem commitCombatAction_renews (decisionPointId actionId : PyStr) (chosen : RunAction) :
    Act.Triple (DatedIn since old) (commitCombatAction env decisionPointId actionId chosen)
      (RenewedIf since old) fun _ => DatedIn since old := by
  have hI : Stable env (DatedIn since old : Instance W Φ κ β → Prop) := calm_dated.stable env
  have hpoison : ∀ phase, Act.Keeps (DatedIn since old) (poisonCombatTransaction env phase) :=
    poison_dated env
  -- The step of the combat is reported as a fault, or there is no reply yet.
  have hstep : Act.Triple (DatedIn since old) (stepCombat env chosen)
      (fun failed inst => DatedIn since old inst ∧ ∀ reply ∈ failed, ¬ Completed reply)
      fun _ => DatedIn since old := by
    refine .catching (E := fun _ => DatedIn since old) (.bind (hI.onPhase env _) fun _ =>
      .pure fun _ h => ⟨h, fun _ hreply => nomatch hreply⟩) fun error =>
      .bind (Stable.poisonIfAdvanced env hpoison) fun _ => .pure fun _ h =>
        ⟨h, fun reply hreply => ?_⟩
    rw [← Option.some.inj hreply]
    exact not_completed_faultReply error
  refine .bind hstep fun failed => ?_
  cases failed with
  | some reply =>
      exact .pure fun _ h => ⟨h.1, fun hcompleted => absurd hcompleted (h.2 reply rfl)⟩
  | none =>
      refine .catching (E := fun _ => DatedIn since old)
        ((settleCombat_renews env _ _).conseq (fun _ h => h.1)
          (fun fields _ h => .of_renewed fields h) fun _ _ h => h) fun error => ?_
      exact .bind (Act.Keeps.get (I := DatedIn since old)) fun _ =>
        .bind (Act.Keeps.onlyIf (I := DatedIn since old) fun _ => hpoison _) fun _ =>
        .pure fun _ h => .of_fault error h

/-- A move on the map, which may enter a combat. -/
theorem advanceRun_renews (view : View) (chosen : RunAction) :
    Act.Triple (DatedIn since old) (advanceRun env view chosen)
      (fun entered => DatedIn since (if entered then withoutRoot old else old))
      fun _ => DatedIn since old := by
  have hI : Framed (DatedIn since old : Instance W Φ κ β → Prop) := calm_dated.framed
  have hmove : ∀ f : Instance W Φ κ β → Option String × Option Int × List Int,
      Act.Keeps (DatedIn since old) (Act.modify fun inst => { inst with
        mapSnapshot := (f inst).1, roomId := (f inst).2.1, actionPrefix := (f inst).2.2 }
        : Op W Φ κ β Unit) :=
    fun f => .modify fun _ h => h
  unfold advanceRun
  split
  · refine .bind (hI.onSession _) fun _ =>
      .bind (hmove fun inst => (inst.mapSnapshot, _, inst.actionPrefix)) fun _ =>
      .bind (hI.onSession _) fun roomContext => ?_
    split
    · exact .bind (hmove fun inst => (inst.mapSnapshot, inst.roomId, [])) fun _ =>
        .bind (enterCombatPhase_renews env) fun _ => .pure fun _ h => h
    · exact .bind (hI.onSession _) fun auto =>
        .bind (hmove fun inst => (inst.mapSnapshot, inst.roomId, auto)) fun _ => .pure fun _ h => h
  · exact .bind (hI.onSession _) fun _ =>
      .bind (hmove fun inst => (inst.mapSnapshot, inst.roomId, _)) fun _ =>
      .bind (hI.onSession _) fun auto =>
      .bind (hmove fun inst => (inst.mapSnapshot, inst.roomId, _)) fun _ => .pure fun _ h => h

/-- A commit outside of a combat. -/
theorem commitRunAction_renews (decisionPointId actionId : PyStr) (view : View)
    (chosen : RunAction) :
    Act.Triple (DatedIn since old) (commitRunAction env decisionPointId actionId view chosen)
      (RenewedIf since old) fun _ => DatedIn since old := by
  have hadvance : Act.Triple (DatedIn since old) (Act.catching (do
      let enteredCombat ← advanceRun env view chosen
      pure (Except.ok enteredCombat)) fun error => pure (.error (faultReply error))
        : Op W Φ κ β (Except Fields Bool))
      (fun advanced inst =>
        (∀ reply, advanced = .error reply → DatedIn since old inst ∧ ¬ Completed reply) ∧
        ∀ entered, advanced = .ok entered →
          DatedIn since (if entered then withoutRoot old else old) inst)
      fun _ => DatedIn since old :=
    .catching (E := fun _ => DatedIn since old) (.bind (advanceRun_renews env view chosen)
      fun _ => .pure fun _ h => ⟨fun _ heq => (by cases heq), fun _ heq => by cases heq; exact h⟩)
      fun error => .pure fun _ h => ⟨fun _ heq => by
        cases heq
        exact ⟨h, not_completed_faultReply error⟩, fun _ heq => by cases heq⟩
  refine .bind hadvance fun advanced => ?_
  cases advanced with
  | error reply =>
      exact .pure fun _ h => ⟨(h.1 reply rfl).1, fun hcompleted =>
        absurd hcompleted (h.1 reply rfl).2⟩
  | ok entered =>
      cases entered with
      | true =>
          -- Entering the combat has renewed the decision.
          exact Act.Triple.conseq ((calm_dated.stable env).recordRootCommit env _ _ true false)
            (fun _ h => h.2 true rfl) (fun fields _ h => .of_renewed fields h)
              fun _ inst h => renewed_le inst h
      | false =>
          exact (recordRootCommit_renews env _ _ true).conseq (fun _ h => h.2 false rfl)
            (fun fields _ h => .of_renewed fields h) fun _ _ h => h

/-- A commit that is carried out renews the decision of the root. -/
theorem commitAction_renews (decisionPointId actionId : PyStr) :
    Act.Triple (DatedIn since old) (commitAction env decisionPointId actionId)
      (RenewedIf since old) fun _ => DatedIn since old := by
  have hI : Framed (DatedIn since old : Instance W Φ κ β → Prop) := calm_dated.framed
  have hkeeps : ∀ {δ : Type} {m : Op W Φ κ β δ}, Act.Keeps (DatedIn since old) m →
      Act.Triple (DatedIn since old) m (fun _ => DatedIn since old) fun _ => DatedIn since old :=
    fun hm => hm
  unfold commitAction
  refine .bind (hkeeps keeps_ensureMutable) fun _ => .bind (hkeeps .get) fun _ =>
    .bind (hkeeps (.ofExcept _)) fun _ => .bind (hkeeps (hI.rootView env)) fun _ =>
    .bind (hkeeps (.raiseIf _ _)) fun _ => .bind (hkeeps (.ofExcept _)) fun _ =>
    .bind (hkeeps .get) fun _ => ?_
  split
  · exact commitCombatAction_renews env _ _ _
  · exact commitRunAction_renews env _ _ _ _

end Commit

/-!
### Refusals

What names a decision of the past is refused before it changes anything.
-/

section Refusals

variable (env : RunEnv W Φ κ β) {point : PyStr}

/-- The decision of the root is another one. -/
def AtAnother (point : PyStr) (inst : Instance W Φ κ β) : Prop :=
  inst.decisionPoints.current? root ≠ some point

/-- An operation that does not return at another decision. -/
def Refused (point : PyStr) (m : Op W Φ κ β α) : Prop :=
  Act.Triple (AtAnother point) m (fun _ _ => False) fun _ _ => True

theorem Refused.after {m : Op W Φ κ β α} {f : α → Op W Φ κ β γ}
    (hm : Act.Keeps (AtAnother point) m) (hf : ∀ a, Refused point (f a)) :
    Refused point (m >>= f) :=
  .bind (hm.conseq (fun _ h => h) (fun _ _ h => h) fun _ _ _ => trivial) hf

theorem Refused.first {m : Op W Φ κ β α} (hm : Refused point m) (f : α → Op W Φ κ β γ) :
    Refused point (m >>= f) :=
  .bind hm fun _ _ hfalse => hfalse.elim

theorem Refused.eq_error {m : Op W Φ κ β α} (hm : Refused point m) {inst : Instance W Φ κ β}
    (h : AtAnother point inst) : ∃ error, (m inst).1 = .error error := by
  have hends := hm inst h
  generalize m inst = ended at hends ⊢
  rcases ended with ⟨error | a, after⟩
  · exact ⟨error, rfl⟩
  · exact hends.elim

theorem ignoresView_atAnother :
    IgnoresView (AtAnother point : Instance W Φ κ β → Prop) where
  session _ _ h := h
  rootHistory _ _ h := h

/-- A check of the decision is not passed. -/
theorem validate_root_error {inst : Instance W Φ κ β} (h : AtAnother point inst) :
    ∃ error, inst.decisionPoints.validate root point = .error error := by
  rcases hvalid : inst.decisionPoints.validate root point with error | _
  · exact ⟨error, rfl⟩
  · exact absurd ((DecisionPointRegistry.validate_eq_ok _).mp hvalid) h

theorem commitAction_refused (actionId : PyStr) :
    Refused point (commitAction env point actionId) := by
  refine .after keeps_ensureMutable fun _ => ?_
  intro inst h
  rcases validate_root_error h with ⟨error, hinvalid⟩
  rw [Act.get_bind, hinvalid]
  trivial

/-- A branch of the root under another decision. -/
def OfRoot (point : PyStr) (item : EmulateItem) : Prop :=
  item.parentBranchId = root ∧ item.decisionPointId = point

/-- An item with it is not admitted. -/
theorem admitItem_refused {inst : Instance W Φ κ β} (h : AtAnother point inst)
    (phase : Phase Φ κ β) (seen : List PyStr) {item : EmulateItem} (hitem : OfRoot point item) :
    ∃ error, admitItem env inst phase seen item = .error error := by
  rcases validate_root_error h with ⟨error, hinvalid⟩
  unfold admitItem
  split
  · exact ⟨_, rfl⟩
  split
  · exact ⟨_, rfl⟩
  split
  · exact ⟨_, rfl⟩
  split
  · exact ⟨_, rfl⟩
  split
  · exact ⟨_, rfl⟩
  split
  · exact ⟨_, rfl⟩
  · rw [hitem.1, hitem.2, hinvalid]
    exact ⟨_, rfl⟩

/-- Nor is a batch with such an item. -/
theorem admitItems_refused {inst : Instance W Φ κ β} (h : AtAnother point inst)
    (phase : Phase Φ κ β) {items : List EmulateItem} (seen : List PyStr)
    (hitems : ∃ item ∈ items, OfRoot point item) :
    ∃ error, admitItems env inst phase seen items = .error error := by
  induction items generalizing seen with
  | nil =>
      rcases hitems with ⟨item, hitem, -⟩
      cases hitem
  | cons first rest ih =>
      unfold admitItems
      rcases hfirst : admitItem env inst phase seen first with error | admitted
      · exact ⟨error, rfl⟩
      rcases hitems with ⟨item, hitem, hroot⟩
      rcases List.mem_cons.mp hitem with rfl | hrest
      · rcases admitItem_refused env h phase seen hroot with ⟨error, hrefused⟩
        rw [hrefused] at hfirst
        cases hfirst
      · rcases ih (first.branchId :: seen) ⟨item, hrest, hroot⟩ with ⟨error, hrefused⟩
        exact ⟨error, by rw [hrefused]; rfl⟩

/-- Nor a branch at an event. -/
theorem validateEventBranch_refused {inst : Instance W Φ κ β} (h : AtAnother point inst)
    {item : EmulateItem} (hitem : OfRoot point item) (view : View) :
    ∃ error, validateEventBranch inst item view = .error error := by
  rcases validate_root_error h with ⟨error, hinvalid⟩
  have hcommon : ∃ error, validateCommonBranch inst item view = .error error := by
    unfold validateCommonBranch
    split
    · exact ⟨_, rfl⟩
    split
    · exact ⟨_, rfl⟩
    split
    · exact ⟨_, rfl⟩
    · rw [hitem.1, hitem.2, hinvalid]
      exact ⟨_, rfl⟩
  rcases hcommon with ⟨error, hcommon⟩
  unfold validateEventBranch
  split
  · exact ⟨_, rfl⟩
  · rw [hcommon]
    exact ⟨_, rfl⟩

/-- A batch in which an item names the decision is not prepared. -/
theorem prepareBatch_refused {inst : Instance W Φ κ β} (h : AtAnother point inst)
    {items : List EmulateItem} (hitems : ∃ item ∈ items, OfRoot point item)
    {views : List (PyStr × View)} (hviews : ∀ entry ∈ views, Viewed inst entry.1 entry.2) :
    ∃ error, Beam.prepareBatch env inst views items = .error error := by
  rcases hbatch : Beam.prepareBatch env inst views items with error | batch
  · exact ⟨error, rfl⟩
  rcases preparedFrom_of_batch env hbatch hviews with ⟨hmap, hfrom, -⟩
  rcases hitems with ⟨item, hitem, hroot⟩
  rw [← hmap] at hitem
  rcases List.mem_map.mp hitem with ⟨prepared, hprepared, rfl⟩
  rcases validateEventBranch_refused h hroot prepared.spec.parentView with ⟨error, hrefused⟩
  have hvalid := (hfrom prepared hprepared).validated
  rw [hrefused] at hvalid
  cases hvalid

theorem emulateCombatPhaseActions_refused {items : List EmulateItem}
    (hitems : ∃ item ∈ items, OfRoot point item) (simulationOptions : Option Fields) :
    Refused point (emulateCombatPhaseActions env items simulationOptions) := by
  refine .after keeps_ensureMutable fun _ => .after (.ofExcept _) fun _ =>
    .after (keeps_checkBatchSize env items) fun _ => ?_
  intro inst h
  rw [Act.get_bind]
  rcases hphase : inst.combatPhase with _ | phase
  · trivial
  · rcases admitItems_refused env h phase [] hitems with ⟨error, hrefused⟩
    dsimp only
    rw [hrefused]
    trivial

theorem emulateEventAction_refused {item : EmulateItem} (hitem : OfRoot point item)
    (simulationOptions : Option Fields) :
    Refused point (emulateEventAction env item simulationOptions) := by
  refine .after keeps_ensureMutable fun _ => .after (.ofExcept _) fun _ => .after .get fun _ =>
    .after (.raiseIf _ _) fun _ => .after (ignoresView_atAnother.viewFor env _) fun view => ?_
  intro inst h
  rcases validateEventBranch_refused h hitem view with ⟨error, hrefused⟩
  rw [Act.get_bind, hrefused]
  trivial

theorem emulateCombatAction_refused {item : EmulateItem} (hitem : OfRoot point item)
    (simulationOptions : Option Fields) :
    Refused point (emulateCombatAction env item simulationOptions) :=
  .first (emulateCombatPhaseActions_refused env ⟨item, List.mem_singleton_self _, hitem⟩ _) _

theorem emulateAction_refused {item : EmulateItem} (hitem : OfRoot point item)
    (simulationOptions : Option Fields) :
    Refused point (emulateAction env item simulationOptions) := by
  refine .after .get fun inst => ?_
  split
  · exact emulateCombatAction_refused env hitem simulationOptions
  · exact emulateEventAction_refused env hitem simulationOptions

/-- The facade refuses it as well. -/
theorem beamEmulateAction_refused {item : EmulateItem} (hitem : OfRoot point item)
    (simulationOptions : Option Fields) :
    Refused point (Beam.emulateAction env item simulationOptions) := by
  refine .after .get fun inst => ?_
  split
  · exact emulateCombatAction_refused env hitem simulationOptions
  have hparent : Act.Keeps (AtAnother point : Instance W Φ κ β → Prop)
      (Beam.parentAtEvent env item.parentBranchId) := by
    rw [hitem.1]
    exact (ignoresView_atAnother.onSession _).bind fun _ => .pure _
  refine .after hparent fun atEvent => ?_
  split
  · exact emulateAction_refused env hitem simulationOptions
  · exact fun _ _ => trivial

theorem beamEmulateEventBatch_refused {items : List EmulateItem}
    (hitems : ∃ item ∈ items, OfRoot point item) :
    Refused point (Beam.emulateEventBatch env items) := by
  have hviews := parentViews_viewed env
    (ignoresView_atAnother : IgnoresView (AtAnother point : Instance W Φ κ β → Prop)) items []
  refine .bind (hviews.conseq (fun _ h => ⟨h, fun entry hentry => nomatch hentry⟩)
    (fun _ _ h => h) fun _ _ _ => trivial) fun views => ?_
  rintro inst ⟨h, hviewed⟩
  rcases prepareBatch_refused env h hitems hviewed with ⟨error, hrefused⟩
  rw [Act.get_bind, hrefused]
  trivial

/-- A call under a decision of the root. -/
def NamesRoot (point : PyStr) : Api.Call → Prop
  | .commitAction decisionPointId _ => decisionPointId = point
  | .emulateAction item _ => OfRoot point item
  | .emulateActions items _ => ∃ item ∈ items, OfRoot point item
  | _ => False

/-- A call under another decision of the root than the current one is not served. -/
theorem call_refused (facade : Facade) {call : Api.Call} (hnames : NamesRoot point call) :
    Refused point (Instance.call env facade call) := by
  cases call with
  | commitAction decisionPointId actionId =>
      obtain rfl : decisionPointId = point := hnames
      exact .first (commitAction_refused env actionId) _
  | emulateAction item simulationOptions =>
      cases facade with
      | base => exact emulateAction_refused env hnames simulationOptions
      | beam => exact beamEmulateAction_refused env hnames simulationOptions
  | emulateActions items simulationOptions =>
      cases facade with
      | base => exact .after .get fun _ => .after (.raiseIf _ _) fun _ =>
          .first (emulateCombatPhaseActions_refused env hnames simulationOptions) _
      | beam =>
          refine .after (.ofExcept _) fun _ => .after (keeps_checkBatchSize env items) fun _ =>
            .after (.ofExcept _) fun _ => .after .get fun inst => ?_
          split
          · exact .first (emulateCombatPhaseActions_refused env hnames simulationOptions) _
          · exact beamEmulateEventBatch_refused env hnames
  | getDecision _ => exact hnames.elim
  | cancelBranches _ => exact hnames.elim
  | releaseBranches _ => exact hnames.elim
  | getBranchStatus _ => exact hnames.elim

end Refusals

/-!
### Requests

Along a run the decision of the root is only renewed, so what was answered once is refused
ever after.
-/

section Requests

variable (env : RunEnv W Φ κ β) {since : Nat} {old : PyStr → Option PyStr}

/-- Both are kept by what keeps either, the dates where branches are known. -/
theorem keeps_knownDated {m : Op W Φ κ β α} (hknown : Act.Keeps Known m)
    (hdated : Act.Triple (KnownDated since old) m (fun _ => DatedIn since old)
      fun _ => DatedIn since old) : Act.Keeps (KnownDated since old) m :=
  (hknown.and hdated).conseq (fun _ h => ⟨h.1, h⟩) (fun _ _ h => h) fun _ _ h => h

/-- The decisions that are current after a request were so before it, or are issued. -/
theorem dated_step (facade : Facade) (request : Request) {inst : Instance W Φ κ β}
    (h : KnownDated since old inst) :
    KnownDated since old (step env facade inst request).1 := by
  have hI : Stable env (KnownDated since old : Instance W Φ κ β → Prop) :=
    calm_knownDated.stable env
  have hpoison : ∀ phase, Act.Keeps (KnownDated since old) (poisonCombatTransaction env phase) :=
    fun phase => keeps_knownDated (poison_known env phase)
      ((poison_dated env phase).conseq (fun _ h => h.2) (fun _ _ h => h) fun _ _ h => h)
  have hknown : Act.Keeps (Known : Instance W Φ κ β → Prop) (enterCombatPhase env) :=
    (steady_known.stable env).enterCombatPhase env (poison_known env) steady_known.restore
  have henter : Act.Keeps (KnownDated since old) (enterCombatPhase env) :=
    keeps_knownDated hknown ((enterCombatPhase_renews env).conseq (fun _ h => h.2)
      (fun _ inst h => renewed_le inst h) fun _ _ h => h)
  refine hI.step env hpoison henter (fun items simulationOptions => ?_)
    (fun item simulationOptions => keeps_knownDated (emulateEventAction_known env _ _)
      (emulateEventAction_dated env item simulationOptions))
    (fun items => keeps_knownDated (beamEmulateEventBatch_known env _)
      (beamEmulateEventBatch_dated env items)) facade inst request (fun _ => ?_) h
  · exact keeps_knownDated (emulateCombatPhaseActions_known env _ _) fun inst h =>
      combatBatched_dated.emulateCombatPhaseActions env items simulationOptions
        (fun _ _ => trivial) inst ⟨rfl, h.2⟩
  · exact calm_knownDated.close env

/-- At the start there is at most the decision that was issued first. -/
theorem dated_of_constructs {config : Fields} {world : W} {access : GameAccess}
    {start : Instance W Φ κ β} (hconstruct : Constructs env config world access start) :
    KnownDated 1 (fun _ => none) start := by
  have hblank : DatedIn 1 (fun _ => none) (blank world access : Instance W Φ κ β) :=
    ⟨Nat.le_refl 1, fun _ _ hpoint => nomatch hpoint⟩
  have hafter := (calm_dated.framed.construct env config).after hblank
  rw [hconstruct] at hafter
  exact ⟨known_of_constructs env hconstruct, hafter⟩

/-- An id that was current has a number that was given. -/
theorem Dated.root_number {points : DecisionPointRegistry} {point : PyStr}
    (h : Dated since (fun _ => none) points) (hpoint : points.current? root = some point) :
    ∃ n < points.counter, point = DecisionPointRegistry.idFor root n := by
  rcases h.current root point hpoint with hold | ⟨n, -, hlt, hid⟩
  · cases hold
  · exact ⟨n, hlt, hid⟩

/-- Where the decision was renewed after the number was given, it is another one. -/
theorem DatedIn.atAnother {inst : Instance W Φ κ β} {n : Nat}
    (h : DatedIn since (withoutRoot old) inst) (hlt : n < since) :
    AtAnother (DecisionPointRegistry.idFor root n) inst := by
  intro hcurrent
  rcases h.current root _ hcurrent with hold | ⟨m, hsince, -, hid⟩
  · simp [withoutRoot] at hold
  · have hsame := idFor_root_inj hid
    omega

theorem step_commitAction (facade : Facade) (point actionId : PyStr) (inst : Instance W Φ κ β) :
    step env facade inst (.call (.commitAction point actionId)) =
      ((commitAction env point actionId inst).2,
        (commitAction env point actionId inst).1.map Json.obj) := by
  have hmap := Act.map_apply inst (commitAction env point actionId) Json.obj
  simp only [step, Instance.call, hmap]

/-- After a commit that was carried out, its decision is not accepted again: a commit
    that names it, and a request for branches with one that is to be grown from it, is
    answered by an error, whatever the requests in between. -/
theorem answered_once (facade : Facade) {config : Fields} {world : W} {access : GameAccess}
    {start : Instance W Φ κ β} (hconstruct : Constructs env config world access start)
    (requests between : List Request) {point actionId : PyStr} {reply : Fields}
    (hcommit : (step env facade (Run.final (step env facade) start requests)
      (.call (.commitAction point actionId))).2 = .ok (.obj reply))
    (hcompleted : Completed reply) {call : Api.Call} (hnames : NamesRoot point call) :
    ∃ error, (step env facade (Run.final (step env facade) start
      (requests ++ .call (.commitAction point actionId) :: between)) (.call call)).2 =
        .error error := by
  have hbefore := Run.invariant (step env facade) (I := KnownDated 1 fun _ => none)
    (fun _ request => dated_step env facade request) start requests
    (dated_of_constructs env hconstruct)
  rw [Run.final_append]
  generalize Run.final (step env facade) start requests = inst at hbefore hcommit ⊢
  rw [Run.final]
  rcases hanswered : commitAction env point actionId inst with ⟨outcome, after⟩
  have hstep : step env facade inst (.call (.commitAction point actionId)) =
      (after, outcome.map Json.obj) := by rw [step_commitAction, hanswered]
  rw [hstep] at hcommit ⊢
  obtain rfl : outcome = .ok reply := by
    rcases (Except.map_eq_ok _ _ _).mp hcommit with ⟨fields, hfields, hobj⟩
    cases hobj
    exact hfields
  -- What was answered was current, and so its number was given before.
  have hcurrent : inst.decisionPoints.current? root = some point := by
    by_contra hother
    have hanother : AtAnother point inst := hother
    rcases (commitAction_refused env actionId).eq_error hanother with ⟨error, herror⟩
    rw [hanswered] at herror
    cases herror
  rcases Dated.root_number hbefore.2 hcurrent with ⟨n, hlt, rfl⟩
  have hrenewed : KnownDated inst.decisionPoints.counter
      (withoutRoot inst.decisionPoints.current?) after := by
    have hends := commitAction_renews env (DecisionPointRegistry.idFor root n) actionId inst
      (Dated.refl inst.decisionPoints)
    have hknown := known_step env facade inst
      (.call (.commitAction (DecisionPointRegistry.idFor root n) actionId)) hbefore.1
    rw [hanswered] at hends
    rw [hstep] at hknown
    exact ⟨hknown, hends.2 hcompleted⟩
  have hlater := Run.invariant (step env facade) (I := KnownDated inst.decisionPoints.counter
    (withoutRoot inst.decisionPoints.current?))
    (fun _ request => dated_step env facade request) after between hrenewed
  exact (call_refused env facade hnames).eq_error (hlater.2.atAnother hlt)

end Requests

/-!
### A run with an event

A decision is answered, and answered again.
-/

section Once

/-- A run in which an event follows the map. -/
def onceRun : RunEnv Nat Unit Unit Unit :=
  { smallRun with
    emulator := { smallEmulator with
      getObservation := fun time =>
        (.ok ⟨if time = 0 then .mapSelect else .eventChoice, "", []⟩, time)
      getLegalActions := pure []
      getRoomContext := pure ⟨false, none, none, none, []⟩ } }

/-- An instance at its first decision. -/
def onceInstance : Instance Nat Unit Unit Unit := (construct onceRun [] (blank 0 {})).2

/-- The decision of the event. -/
def onceView : View where
  legalActions := []
  boundary := .eventChoice
  observation := ⟨.eventChoice, "", []⟩
  roomContext := ⟨false, none, none, none, []⟩
  mapSnapshot := some "map"
  roomId := some 7
  actionPrefix := []
  choiceType := choiceTypeFromBoundary .eventChoice
  chainBlocked := false
  eventRngState := some ⟨"event", smallStream, smallStream, smallStream, smallStream⟩

/-- The instance at the event. -/
def onceEntered : Instance Nat Unit Unit Unit :=
  { onceInstance with
    session := { onceInstance.session with world := 1 }
    roomId := some 7
    rootBranchLog := [⟨0, "d-root-000001", "7", 0⟩]
    rootContexts := [⟨false, none, none, none, []⟩, ⟨false, none, none, none, []⟩]
    decisionPoints := onceInstance.decisionPoints.issue root }

/-- A member without members of its own is entered for nothing. -/
theorem not_visits_leaf {leaf : Json} (hleaf : leaf = .list [] ∨ leaf = .obj [] ∨
    Api.isScalar leaf = true) {key : PyStr} {value : Json} : ¬ Api.Visits leaf key value := by
  intro hvisits
  cases hvisits with
  | member hmem =>
      simp only [Api.isScalar] at hleaf
      simp_all
  | inside hmem =>
      simp only [Api.isScalar] at hleaf
      simp_all
  | item hmem =>
      simp only [Api.isScalar] at hleaf
      simp_all

theorem readable_onceView : Api.Readable (.obj [("boundary", .str "event_choice"),
    ("legal_actions", .list []), ("room_context", .obj []), ("history", .list [])]) := by
  intro key pile hvisits hkey
  cases hvisits with
  | member hmem =>
      simp only [List.mem_cons, Prod.mk.injEq, List.not_mem_nil, or_false] at hmem
      rcases hmem with ⟨rfl, -⟩ | ⟨rfl, -⟩ | ⟨rfl, -⟩ | ⟨rfl, -⟩ <;>
        exact absurd hkey (by decide)
  | @inside _ _ _ node _ _ hmem hkept hentered h =>
      refine absurd h (not_visits_leaf ?_)
      simp only [List.mem_cons, Prod.mk.injEq, List.not_mem_nil, or_false] at hmem
      rcases hmem with ⟨rfl, rfl⟩ | ⟨rfl, rfl⟩ | ⟨rfl, rfl⟩ | ⟨rfl, rfl⟩
      · exact .inr (.inr (Option.some.inj hentered ▸ rfl))
      · exact .inl (Option.some.inj hentered).symm
      · exact .inr (.inl (Option.some.inj hentered).symm)
      · exact .inl (Option.some.inj hentered).symm

/-- The event is entered, and its decision is the reply. -/
theorem onceRun_commit : ∃ fields, commitAction onceRun "d-root-000001" "7" onceInstance =
    (.ok (completedReply fields), onceEntered) := by
  have hextra : decisionExtra onceView onceEntered.rootHistory = .ok
      [("boundary", .str "event_choice"), ("legal_actions", .list []), ("room_context", .obj []),
        ("history", .list [])] := rfl
  rcases (Api.buildMaskedEmulatorDto_isOk_iff [] (some [("boundary", .str "event_choice"),
    ("legal_actions", .list []), ("room_context", .obj []), ("history", .list [])])).mpr
    ⟨fun _ _ hvisits => absurd hvisits (not_visits_leaf (.inr (.inl rfl))), readable_onceView,
      fun hterminal => absurd hterminal.1 (by decide)⟩ with ⟨masked, hmasked⟩
  have hfields : decisionResponseFields onceEntered root onceView onceEntered.rootBranchLog
      onceEntered.rootHistory =
        .ok (decisionFields onceEntered root onceEntered.rootBranchLog masked) := by
    unfold decisionResponseFields
    rw [hextra]
    dsimp only
    rw [show onceView.observation.state = [] from rfl, hmasked]
    rfl
  have hreply : commitAction onceRun "d-root-000001" "7" onceInstance =
      rootDecisionReply onceView onceEntered := by rfl
  refine ⟨onceEntered.decisionFields root onceEntered.rootBranchLog masked, ?_⟩
  rw [hreply]
  unfold rootDecisionReply
  rw [Act.get_bind, hfields]
  rfl

/-- The commit that entered the event, and a branch of its decision, are not accepted
    any more. -/
theorem answered_once_small : ∃ reply, (step onceRun .base onceInstance
      (.call (.commitAction "d-root-000001" "7"))).2 = .ok (.obj reply) ∧ Completed reply ∧
    (∃ error, (step onceRun .base (Run.final (step onceRun .base) onceInstance
      [.call (.commitAction "d-root-000001" "7"), .call (.getDecision root)])
      (.call (.commitAction "d-root-000001" "7"))).2 = .error error) := by
  rcases onceRun_commit with ⟨fields, hcommit⟩
  have hstep : (step onceRun .base onceInstance
      (.call (.commitAction "d-root-000001" "7"))).2 = .ok (.obj (completedReply fields)) := by
    rw [step_commitAction, hcommit]
    rfl
  have hcompleted : Completed (completedReply fields) := Dict.lookupL_cons_self _ _ _
  exact ⟨_, hstep, hcompleted, answered_once onceRun .base
    (rfl : Constructs onceRun [] 0 {} onceInstance) [] [.call (.getDecision root)] hstep hcompleted
    (show NamesRoot "d-root-000001" (.commitAction "d-root-000001" "7") from rfl)⟩

end Once

end Instance

end WholeRun

end STS2RL
