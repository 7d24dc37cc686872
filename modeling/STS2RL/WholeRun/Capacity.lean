import STS2RL.WholeRun.EventChain
import Mathlib.Data.Finset.Card

/-!
# The Capacity of an Instance

An instance has room for so many branches: for the reservations of the combat that is
live, and for the branches of events that are completed and have not ended. A batch is
counted before it changes anything, so neither number goes beyond the limit, whatever
fails and at whatever point.

What comes after the count can only lower it. A branch of an event that is completed
was so from the start: a status is read back for a branch of a combat only.

## Main definitions

* `Book.ActiveEvent`, `activeEventCount`: The branches of events that count.
* `Roomy`: There is room.

## Theorems

* `activeEventCount_modifyBook`: A change of a record gives no room away.
* `stable_roomy`, `combatPlayed_roomy`: The operations and the combat batch.
* `capacity_kept`: There is room in every state of every run.
-/

namespace STS2RL

namespace WholeRun

open Api (PyError Fields EmulateItem)

variable {W Φ κ β α : Type}

/-- A branch of an event that is completed and has not ended. -/
def Book.ActiveEvent (book : Book κ β) : Bool :=
  book.internalId.isNone && book.status = .completed && !book.terminal

namespace Instance

/-- The branches of events that are completed and have not ended. -/
def activeEventCount (inst : Instance W Φ κ β) : Nat :=
  inst.bookkeeping.entries.countP fun entry => entry.2.ActiveEvent

/-- There is room for the reservations and for the branches of events. -/
structure Roomy (maxBranches : Nat) (inst : Instance W Φ κ β) : Prop where
  reservations : inst.combatBranchReservations.card ≤ maxBranches
  events : inst.activeEventCount ≤ maxBranches

/-- A change of a record that makes no branch of an event active. -/
def Wanes (change : Book κ β → Book κ β) : Prop :=
  ∀ book : Book κ β, (change book).ActiveEvent = true → book.ActiveEvent = true

section Counts

variable {maxBranches : Nat} {inst inst' : Instance W Φ κ β}

/-- The branches that count are among those that an event batch counts. -/
theorem activeEventCount_le (inst : Instance W Φ κ β) :
    inst.activeEventCount ≤ inst.activeBranchCount := by
  unfold activeEventCount activeBranchCount
  rw [← List.countP_eq_length_filter]
  refine List.countP_mono_left fun entry _ h => ?_
  simp only [Book.ActiveEvent, Bool.and_eq_true, decide_eq_true_eq, Bool.not_eq_true'] at h ⊢
  exact ⟨h.1.2, h.2⟩

/-- A record that is changed where it is, by a change that wanes for it. -/
theorem activeEventCount_modifyBook {branchId : PyStr} {change : Book κ β → Book κ β}
    (hchange : ∀ book, inst.bookkeeping.get? branchId = some book →
      (change book).ActiveEvent = true → book.ActiveEvent = true) :
    (modifyBook branchId change inst).activeEventCount ≤ inst.activeEventCount := by
  unfold modifyBook
  rcases hbook : inst.bookkeeping.get? branchId with _ | book
  · exact Nat.le_refl _
  · exact Dict.countP_set_le_of_imp _ _ hbook (hchange book hbook)

theorem modifyBook_reservations (branchId : PyStr) (change : Book κ β → Book κ β)
    (inst : Instance W Φ κ β) :
    (modifyBook branchId change inst).combatBranchReservations = inst.combatBranchReservations := by
  rcases modifyBook_eq branchId change inst with ⟨bookkeeping, heq⟩
  rw [heq]

theorem Roomy.modifyBook (h : Roomy maxBranches inst) (branchId : PyStr)
    {change : Book κ β → Book κ β} (hchange : Wanes change) :
    Roomy maxBranches (modifyBook branchId change inst) :=
  ⟨(modifyBook_reservations _ _ _).symm ▸ h.reservations,
    (activeEventCount_modifyBook fun book _ => hchange book).trans h.events⟩

theorem Roomy.releaseEventRngReference (h : Roomy maxBranches inst) (branchId : PyStr) :
    Roomy maxBranches (releaseEventRngReference branchId inst) := by
  unfold Instance.releaseEventRngReference
  split
  · exact h
  · rename_i plan _
    have hreleased : Roomy maxBranches { inst with
        eventRngRegistry := inst.eventRngRegistry.releaseBranch plan.hypothesisKey branchId } :=
      ⟨h.reservations, h.events⟩
    exact hreleased.modifyBook _ fun _ hactive => hactive

/-- A branch that ends does not count. -/
theorem Roomy.endBranch (h : Roomy maxBranches inst) (branchId : PyStr) (status : BookStatus)
    (hstatus : status ≠ .completed) : Roomy maxBranches (Instance.releaseEventRngReference branchId
      (Instance.modifyBook branchId (fun book => { book with status, view := none }) inst)) := by
  have hended : Roomy maxBranches
      (Instance.modifyBook branchId (fun book => { book with status, view := none }) inst) :=
    h.modifyBook branchId fun book hactive => by simp [Book.ActiveEvent, hstatus] at hactive
  exact hended.releaseEventRngReference branchId

theorem Roomy.faultEventBranch (h : Roomy maxBranches inst) (branchId : PyStr) :
    Roomy maxBranches (faultEventBranch branchId inst) := by
  have hfaulted : Roomy maxBranches
      (Instance.modifyBook branchId (fun book => { book with status := .faulted }) inst) :=
    h.modifyBook branchId fun book hactive => by simp [Book.ActiveEvent] at hactive
  exact hfaulted.releaseEventRngReference branchId

end Counts

section Operations

variable (env : RunEnv W Φ κ β) (maxBranches : Nat)

theorem framed_roomy : Framed (Roomy maxBranches : Instance W Φ κ β → Prop) where
  session _ _ h := ⟨h.reservations, h.events⟩
  rootHistory _ _ h := ⟨h.reservations, h.events⟩
  position _ _ _ _ h := ⟨h.reservations, h.events⟩
  nextHolder _ _ h := ⟨h.reservations, h.events⟩
  issue _ h := ⟨h.reservations, h.events⟩
  observe _ branchId _ h := h.modifyBook branchId fun _ hactive => hactive

theorem phase_roomy (inst : Instance W Φ κ β) (session : Session W) (phase phase' : Phase Φ κ β)
    (_ : inst.combatPhase = some phase) (h : Roomy maxBranches inst) :
    Roomy maxBranches { inst with session, combatPhase := some phase' } :=
  ⟨h.reservations, h.events⟩

/-- The operations on the records. -/
theorem stable_roomy : Stable env (Roomy maxBranches : Instance W Φ κ β → Prop) where
  toFramed := framed_roomy maxBranches
  rootBranchLog _ _ _ h := ⟨h.reservations, h.events⟩
  completion _ _ h := ⟨h.reservations, h.events⟩
  phase := phase_roomy maxBranches
  install _ _ _ h := ⟨h.reservations, h.events⟩
  leave _ h := ⟨h.reservations, h.events⟩
  cancelBranch branchId := by
    have hinternal : ∀ internalId, Act.Keeps (Roomy maxBranches)
        (cancelInternal env internalId : Op W Φ κ β Unit) := by
      intro internalId
      cases internalId with
      | none => exact .pure _
      | some internalId =>
          exact Act.Keeps.get.bind fun _ => (Act.Keeps.raiseIf _ _).bind fun _ =>
            keeps_onPhase (phase_roomy maxBranches) _
    refine (keeps_rejectIfRoot branchId).bind fun _ => Act.Keeps.get.bind fun inst => ?_
    split
    · exact .raise _
    · exact .onlyIf fun _ => (hinternal _).bind fun _ => .modify fun inst h =>
        h.endBranch branchId .cancelled (by decide)
  releaseBranch branchId := by
    have hinternal : ∀ internalId, Act.Keeps (Roomy maxBranches)
        (releaseInternal env branchId internalId : Op W Φ κ β Unit) := by
      intro internalId
      cases internalId with
      | none => exact .pure _
      | some internalId =>
          exact Act.Keeps.get.bind fun _ => (Act.Keeps.raiseIf _ _).bind fun _ =>
            (keeps_onPhase (phase_roomy maxBranches) _).bind fun _ => .modify fun inst h =>
              ⟨Finset.card_erase_le.trans h.reservations, h.events⟩
    refine (keeps_rejectIfRoot branchId).bind fun _ => Act.Keeps.get.bind fun inst => ?_
    split
    · exact .raise _
    · exact .onlyIf fun _ => (hinternal _).bind fun _ => .modify fun inst h =>
        h.endBranch branchId .released (by decide)
  readBranchStatus branchId := by
    -- The status that is read is that of a branch of a combat, which does not count.
    refine (keeps_rejectIfRoot branchId).bind fun _ => fun inst h => ?_
    rw [Act.get_bind]
    cases hbook : inst.bookkeeping.get? branchId with
    | none => exact h
    | some book =>
        dsimp only
        cases hinternal : book.internalId with
        | none => exact h
        | some internalId =>
            dsimp only
            by_cases hstatus : book.status = .released
            · rw [if_pos hstatus]
              exact h
            rw [if_neg hstatus]
            let I : Instance W Φ κ β → Prop := fun inst => Roomy maxBranches inst ∧
              inst.bookkeeping.get? branchId = some book
            have hcall : Act.Keeps I (onPhase
                (Phase.onBranches (env.phases.branches.branchStatus internalId)) : Op W Φ κ β _) :=
              keeps_onPhase (fun inst session phase phase' hphase h =>
                ⟨phase_roomy maxBranches inst session phase phase' hphase h.1, h.2⟩) _
            have hraise : Act.Keeps I
                (Act.raiseIf inst.combatPhase.isNone outlivedPhase : Op W Φ κ β Unit) :=
                  .raiseIf _ _
            refine Act.Triple.bind (Q := fun _ => I) (R := fun _ => Roomy maxBranches)
              (E := fun _ => Roomy maxBranches)
              (hraise.conseq (fun _ h => h) (fun _ _ h => h) fun _ _ h => h.1)
              (fun _ => .bind (Q := fun _ => I) (hcall.conseq (fun _ h => h) (fun _ _ h => h)
                fun _ _ h => h.1) fun status => .bind (Q := fun _ => Roomy maxBranches)
                (.modify fun inst h => ?_) fun _ => .pure fun _ h => h) inst ⟨h, hbook⟩
            refine ⟨(modifyBook_reservations _ _ _).symm ▸ h.1.reservations,
              (activeEventCount_modifyBook fun book' hbook' hactive => ?_).trans h.1.events⟩
            rw [h.2] at hbook'
            cases hbook'
            simp [Book.ActiveEvent, hinternal] at hactive
  retire := by
    refine Act.Keeps.get.bind fun _ => .bind (.onlyIf fun _ => (Act.Keeps.raiseIf _ _).bind fun _ =>
      keeps_onPhase (phase_roomy maxBranches) _) fun _ => .modify fun inst h => ⟨?_, ?_⟩
    · refine List.foldlRecOn (motive := fun reservations : Finset PyStr =>
        reservations.card ≤ maxBranches) _ _ h.reservations fun _ hcard _ _ =>
          Finset.card_erase_le.trans hcard
    · refine (Dict.countP_mapVals_le _ _ _ fun _ book hactive => ?_).trans h.events
      simp only [Book.ActiveEvent, retiredBook, Bool.and_eq_true] at hactive
      split at hactive
      · rename_i hended
        rcases hended with hended | hended <;> simp [hended] at hactive
      · simp at hactive

/-- A batch of a combat is counted before it is reserved. -/
theorem combatPlayed_roomy : CombatPlayed maxBranches
    (fun _ => (Roomy maxBranches : Instance W Φ κ β → Prop)) (fun _ => True) fun _ => True where
  framed _ := framed_roomy maxBranches
  mono _ h := h
  phase _ := phase_roomy maxBranches
  reserve inst branchIds hroom h := by
    refine ⟨(Finset.card_union_le _ _).trans ?_, h.events⟩
    have hcard := List.toFinset_card_le branchIds
    omega
  unreserve _ _ h := ⟨(Finset.card_le_card Finset.sdiff_subset).trans h.reservations, h.events⟩
  register _ prepared internalId inst _ _ h :=
    ⟨h.reservations, (Dict.countP_set_le _ _ _ _).trans h.events⟩
  unregister inst branchId _ h :=
    ⟨h.reservations, (Dict.countP_erase_le _ _ branchId).trans h.events⟩
  issue _ _ _ _ h := ⟨h.reservations, h.events⟩
  settle _ branchId change inst _ hchange h := by
    refine h.modifyBook branchId fun book hactive => ?_
    cases hchange <;> simp_all [Book.ActiveEvent]

theorem eventSettled_roomy (branchId : PyStr) :
    EventSettled (Roomy maxBranches : Instance W Φ κ β → Prop) branchId where
  fault _ h := h.faultEventBranch branchId
  terminal _ _ h := h.modifyBook branchId fun book hactive => by
    simp [Book.ActiveEvent] at hactive
  issue _ h := ⟨h.reservations, h.events⟩
  view _ _ h := h.modifyBook branchId fun _ hactive => hactive

end Operations

section Events

variable (env : RunEnv W Φ κ β) {inst : Instance W Φ κ β}

theorem activeEventCount_committedAs (prepared : PreparedEvent κ β)
    (registry : EventRngHypothesisRegistry) :
    (committedAs prepared registry inst).activeEventCount ≤ inst.activeEventCount + 1 := by
  refine (Dict.countP_set_le _ _ _ _).trans ?_
  split <;> exact Nat.add_le_add_left (by omega) _

/-- Branches that are committed count for one each. -/
theorem CommittedChain.roomy {after : Instance W Φ κ β} {batch : List (PreparedEvent κ β)}
    (hchain : CommittedChain inst batch after) :
    after.combatBranchReservations = inst.combatBranchReservations ∧
      after.activeEventCount ≤ inst.activeEventCount + batch.length := by
  induction hchain with
  | nil => exact ⟨rfl, Nat.le_refl _⟩
  | @cons inst after prepared rest registry _ _ _ ih =>
      have hone : (committedAs prepared registry inst).activeEventCount ≤
          inst.activeEventCount + 1 := activeEventCount_committedAs prepared registry
      rw [List.length_cons]
      exact ⟨ih.1, by omega⟩

/-- There is room, and the records speak of known branches. -/
def KnownRoomy (maxBranches : Nat) (inst : Instance W Φ κ β) : Prop :=
  Known inst ∧ Roomy maxBranches inst

theorem ignoresView_knownRoomy (maxBranches : Nat) :
    IgnoresView (KnownRoomy maxBranches : Instance W Φ κ β → Prop) where
  session inst session h := ⟨steady_known.session inst session h.1,
    (framed_roomy maxBranches).session inst session h.2⟩
  rootHistory inst history h := ⟨steady_known.rootHistory inst history h.1,
    (framed_roomy maxBranches).rootHistory inst history h.2⟩

/-- One branch at an event needs room. -/
theorem emulateEventAction_roomy (item : EmulateItem) (simulationOptions : Option Fields) :
    Act.Triple (KnownRoomy env.maxBranches) (emulateEventAction env item simulationOptions)
      (fun _ => Roomy env.maxBranches) fun _ => Roomy env.maxBranches := by
  refine emulateEventAction_triple env (ignoresView_knownRoomy _) (fun _ h => h.2)
    (J := fun _ => Roomy env.maxBranches) ?_ (fun prepared =>
      (eventSettled_roomy env.maxBranches _).dispatchOne env (framed_roomy _)) item
        simulationOptions
  rintro _ prepared ⟨hknown, h⟩ - hroom inst rfl
  rcases commitPreparedBranch_after hknown.root prepared with ⟨error, hraises⟩ |
    ⟨registry, -, -, hok⟩
  · rw [hraises]
    exact h
  · rw [hok]
    have hcount := activeEventCount_le inst
    have hone : (committedAs prepared registry inst).activeEventCount ≤
        inst.activeEventCount + 1 := activeEventCount_committedAs prepared registry
    exact ⟨h.reservations, by omega⟩

/-- A batch at an event needs room for all of it. -/
theorem beamEmulateEventBatch_roomy (items : List EmulateItem) :
    Act.Triple (KnownRoomy env.maxBranches) (Beam.emulateEventBatch env items)
      (fun _ => Roomy env.maxBranches) fun _ => Roomy env.maxBranches := by
  refine emulateEventBatch_triple env (ignoresView_knownRoomy _) (fun _ h => h.2)
    (J := fun _ => Roomy env.maxBranches) ?_ (fun batch =>
      keeps_dispatchPreparedBatch env (framed_roomy _) (stable_roomy env _).releaseBranch
        fun _ _ => eventSettled_roomy _ _) items
  rintro _ batch ⟨hknown, h⟩ - - hroom inst rfl
  rcases commitBatch_after hknown batch with ⟨error, hraises⟩ | ⟨after, hok, hchain⟩
  · rw [hraises]
    exact h
  · rw [hok]
    have hcount := activeEventCount_le inst
    have hchain := hchain.roomy
    exact ⟨hchain.1 ▸ h.reservations, by omega⟩

end Events

section Requests

variable (env : RunEnv W Φ κ β) {inst : Instance W Φ κ β}

/-- Both are kept by what keeps either, the room where branches are known. -/
theorem keeps_knownRoomy {m : Op W Φ κ β α} {maxBranches : Nat} (hknown : Act.Keeps Known m)
    (hroomy : Act.Triple (KnownRoomy maxBranches) m (fun _ => Roomy maxBranches)
      fun _ => Roomy maxBranches) : Act.Keeps (KnownRoomy maxBranches) m :=
  (hknown.and hroomy).conseq (fun _ h => ⟨h.1, h⟩) (fun _ _ h => h) fun _ _ h => h

theorem stable_knownRoomy (maxBranches : Nat) :
    Stable env (KnownRoomy maxBranches : Instance W Φ κ β → Prop) := by
  have hknown : Stable env (Known : Instance W Φ κ β → Prop) := steady_known.stable env
  exact hknown.and env (stable_roomy env maxBranches)

theorem close_roomy (maxBranches : Nat) :
    Act.Keeps (Roomy maxBranches : Instance W Φ κ β → Prop) (close env) := by
  have hI := stable_roomy (κ := κ) (β := β) env maxBranches
  exact Act.Keeps.get.bind fun _ => .onlyIf fun _ =>
    (Act.Keeps.modify fun inst h => ⟨h.reservations, h.events⟩).bind fun _ =>
    (Act.Keeps.onlyIf fun _ => hI.retire.ensuring
      ((hI.onPhase env _).bind fun _ => .modify hI.leave)).ensuring
    ((Act.Keeps.modify fun inst h => ⟨h.reservations, h.events⟩).ensuring
      ((hI.onSession _).ensuring (.modify fun inst h => hI.session inst _ h)))

/-- There is room after every request. -/
theorem roomy_step (facade : Facade) (request : Request) (h : KnownRoomy env.maxBranches inst) :
    KnownRoomy env.maxBranches (step env facade inst request).1 := by
  have hI := stable_knownRoomy env env.maxBranches
  have hfault : ∀ (inst : Instance W Φ κ β) faulted, KnownRoomy env.maxBranches inst →
      KnownRoomy env.maxBranches { inst with faulted } :=
    fun inst faulted h => ⟨⟨h.1.root, h.1.known, h.1.registered, h.1.books, h.1.points,
      h.1.registry⟩, h.2.reservations, h.2.events⟩
  have hpoison := hI.poisonCombatTransaction env hfault
  have hrestore : ∀ (inst : Instance W Φ κ β) prior, KnownRoomy env.maxBranches inst →
      KnownRoomy env.maxBranches { inst with
        decisionPoints := inst.decisionPoints.restoreCurrent root prior } :=
    fun inst prior h => ⟨steady_known.restore inst prior h.1, h.2.reservations, h.2.events⟩
  refine hI.step env hpoison (hI.enterCombatPhase env hpoison hrestore)
    (fun items simulationOptions => ?_)
    (fun item simulationOptions => keeps_knownRoomy (emulateEventAction_known env _ _)
      (emulateEventAction_roomy env item simulationOptions))
    (fun items => keeps_knownRoomy (beamEmulateEventBatch_known env _)
      (beamEmulateEventBatch_roomy env items)) facade inst request (fun _ => ?_) h
  · have hplayed := combatPlayed_roomy (κ := κ) (β := β) (W := W) (Φ := Φ) env.maxBranches
    refine keeps_knownRoomy (emulateCombatPhaseActions_known env _ _) fun inst h =>
      hplayed.emulateCombatPhaseActions env rfl items simulationOptions (fun _ _ => trivial)
        (fun _ _ _ entry _ => (hplayed.prepareItem env entry).conseq (fun _ h => h)
          (fun _ _ h => ⟨h, trivial⟩) fun _ _ h => h) h.2
  · exact ((steady_known.close env).and (close_roomy env _)).conseq (fun _ h => h)
      (fun _ _ h => h) fun _ _ h => h

/-- In every state of every run there are at most so many reservations and at most so
    many branches of events that are completed and have not ended, as an instance may
    have branches. -/
theorem capacity_kept (facade : Facade) {config : Fields} {world : W} {access : GameAccess}
    {start : Instance W Φ κ β} (hconstruct : Constructs env config world access start)
    (requests : List Request) :
    (Run.final (step env facade) start requests).combatBranchReservations.card ≤ env.maxBranches ∧
      (Run.final (step env facade) start requests).activeEventCount ≤ env.maxBranches := by
  have hstart : Roomy env.maxBranches start := by
    have hafter := ((framed_roomy env.maxBranches).construct env config).after
      (s := blank world access) ⟨Nat.zero_le _, Nat.zero_le _⟩
    rw [hconstruct] at hafter
    exact hafter
  have hroomy := Run.invariant _ (I := KnownRoomy env.maxBranches)
    (fun _ request => roomy_step env facade request) start requests
    ⟨known_of_constructs env hconstruct, hstart⟩
  exact ⟨hroomy.2.reservations, hroomy.2.events⟩

/-- A run that has grown a branch, which counts. -/
theorem capacity_kept_small :
    ((Run.final (step chainRun .base) chainInstance
        (enterEvent ++ playFirst)).combatBranchReservations.card ≤ chainRun.maxBranches ∧
      (Run.final (step chainRun .base) chainInstance
        (enterEvent ++ playFirst)).activeEventCount ≤ chainRun.maxBranches) ∧
    (Run.final (step chainRun .base) chainInstance
      (enterEvent ++ playFirst)).activeEventCount = 1 := by
  refine ⟨capacity_kept chainRun .base (rfl : Constructs chainRun [] 0 {} chainInstance)
    (enterEvent ++ playFirst), ?_⟩
  rw [final_playFirst]
  rfl

end Requests

end Instance

end WholeRun

end STS2RL
