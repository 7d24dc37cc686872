import STS2RL.WholeRun.FrozenInstance
import STS2RL.WholeRun.KnownBranches

/-!
# Rejected Requests

Cancelling and releasing take a list of branch ids and go through it once: each
id is looked up when its turn comes, and its branch ends before the next id is
looked at. A request that names no branch at a later position is therefore
rejected after the branches in front of it have ended. The instance of a single
combat looks all ids up first.

Nothing happened before the rejection exactly when every branch in front of the
id had ended already. One direction is that the turn of such a branch does
nothing. The other is that a branch whose turn has passed has ended, and stays
so for the rest of the list.

## Main definitions

* `NamesNoBranch`: The ids that a request is rejected for.
* `SameBranches`: What a rejected request is to leave alone.
* `Ending`: What a turn of such a request is.
* `branchAtEvent`: A run with a branch that is cancelled by a rejected request.

## Theorems

* `ending_cancelBranch`, `ending_releaseBranch`: The two requests.
* `Ending.rejected`: A request is rejected where its first bad id stands.
* `Ending.sameBranches_iff`: When it has changed nothing until then.
* `rejected_unchanged_iff`: The law of rejected requests.
-/

namespace STS2RL

namespace WholeRun

open Api (PyError Fields EmulateItem reject)

variable {W Φ κ β : Type}

namespace Instance

/-- An id that is the root or that nothing is known of. -/
def NamesNoBranch (inst : Instance W Φ κ β) (branchId : PyStr) : Prop :=
  branchId = root ∨ inst.bookkeeping.get? branchId = none

/-- The rejection of such an id. -/
def rejectionOf (branchId : PyStr) : PyError :=
  if branchId = root then
    .rejected (reject "root cannot be Cancelled/Released/status-queried as a Branch")
  else unknownBranch branchId

/-- Every branch, reservation, hypothesis and branch of the phase is as it was. -/
structure SameBranches (inst inst' : Instance W Φ κ β) : Prop where
  bookkeeping : inst'.bookkeeping = inst.bookkeeping
  reservations : inst'.combatBranchReservations = inst.combatBranchReservations
  registry : inst'.eventRngRegistry = inst.eventRngRegistry
  phase : inst'.combatPhase.map Phase.branches = inst.combatPhase.map Phase.branches

theorem SameBranches.refl (inst : Instance W Φ κ β) : SameBranches inst inst := ⟨rfl, rfl, rfl, rfl⟩

/-!
### Ending branches

Cancelling and releasing go through the same argument: each id is refused, or ends its
branch and no other.
-/

section Ending

/-- A request that ends the branches of its ids, one turn for each. -/
structure Ending (Ended : BookStatus → Prop) (turn : PyStr → Op W Φ κ β Unit) : Prop where
  rejects : ∀ inst branchId, NamesNoBranch inst branchId →
    turn branchId inst = (.error (rejectionOf branchId), inst)
  idle : ∀ inst branchId book, branchId ≠ root → inst.bookkeeping.get? branchId = some book →
    Ended book.status → turn branchId inst = (.ok (), inst)
  ends : ∀ inst branchId after, turn branchId inst = (.ok (), after) →
    (∃ book, after.bookkeeping.get? branchId = some book ∧ Ended book.status) ∧
    ∀ other, other ≠ branchId → after.bookkeeping.get? other = inst.bookkeeping.get? other

variable {Ended : BookStatus → Prop} {turn : PyStr → Op W Φ κ β Unit} {inst : Instance W Φ κ β}

theorem Ending.known (h : Ending Ended turn) {branchId : PyStr} {after : Instance W Φ κ β}
    (hturn : turn branchId inst = (.ok (), after)) : ¬ NamesNoBranch inst branchId := by
  intro hbad
  rw [h.rejects inst branchId hbad] at hturn
  cases hturn

/-- A turn neither makes nor forgets a branch. -/
theorem Ending.namesNoBranch_iff (h : Ending Ended turn) {branchId : PyStr}
    {after : Instance W Φ κ β} (hturn : turn branchId inst = (.ok (), after)) (other : PyStr) :
    NamesNoBranch after other ↔ NamesNoBranch inst other := by
  rcases h.ends inst branchId after hturn with ⟨⟨book, hbook, -⟩, hothers⟩
  by_cases hother : other = branchId
  · subst hother
    have hknown := h.known hturn
    constructor
    · rintro (hroot | hnone)
      · exact .inl hroot
      · rw [hbook] at hnone
        cases hnone
    · exact fun hbad => absurd hbad hknown
  · unfold NamesNoBranch
    rw [hothers other hother]

/-- The branches that have ended stay so, and those whose turn has passed have. -/
theorem Ending.forEach_ended (h : Ending Ended turn) (branchIds : List PyStr)
    {after : Instance W Φ κ β} (hturns : Act.forEach turn branchIds inst = (.ok (), after))
    (branchId : PyStr) (hended : branchId ∈ branchIds ∨
      ∃ book, inst.bookkeeping.get? branchId = some book ∧ Ended book.status) :
    ∃ book, after.bookkeeping.get? branchId = some book ∧ Ended book.status := by
  induction branchIds generalizing inst with
  | nil =>
      cases hturns
      rcases hended with hmem | hended
      · cases hmem
      · exact hended
  | cons first rest ih =>
      rcases hturn : turn first inst with ⟨outcome, middle⟩
      unfold Act.forEach at hturns
      cases outcome with
      | error error =>
          rw [Act.bind_of_error _ hturn] at hturns
          cases hturns
      | ok =>
          rw [Act.bind_of_ok _ hturn] at hturns
          rcases h.ends inst first middle hturn with ⟨hfirst, hothers⟩
          refine ih hturns ?_
          by_cases hsame : branchId = first
          · exact .inr (hsame ▸ hfirst)
          · rcases hended with hmem | hended
            · exact .inl ((List.mem_cons.mp hmem).resolve_left hsame)
            · exact .inr (by rwa [hothers branchId hsame])

/-- The turns of branches that have ended do nothing. -/
theorem Ending.forEach_idle (h : Ending Ended turn) (branchIds : List PyStr)
    (hended : ∀ branchId ∈ branchIds, branchId ≠ root ∧
      ∃ book, inst.bookkeeping.get? branchId = some book ∧ Ended book.status) :
    Act.forEach turn branchIds inst = (.ok (), inst) := by
  induction branchIds with
  | nil => rfl
  | cons first rest ih =>
      rcases hended first List.mem_cons_self with ⟨hroot, book, hbook, hfirst⟩
      unfold Act.forEach
      rw [Act.bind_of_ok _ (h.idle inst first book hroot hbook hfirst)]
      exact ih fun branchId hmem => hended branchId (List.mem_cons_of_mem _ hmem)

/-- The request is rejected at its first bad id, in the state that the turns in
    front of it have come to. -/
theorem Ending.rejected (h : Ending Ended turn) (before : List PyStr) (bad : PyStr)
    (rest : List PyStr) (hbad : NamesNoBranch inst bad) {after : Instance W Φ κ β}
    (hpassed : Act.forEach turn before inst = (.ok (), after)) :
    Act.forEach turn (before ++ bad :: rest) inst = (.error (rejectionOf bad), after) := by
  induction before generalizing inst with
  | nil =>
      cases hpassed
      exact Act.bind_of_error _ (h.rejects _ bad hbad)
  | cons first before ih =>
      rcases hturn : turn first inst with ⟨outcome, middle⟩
      unfold Act.forEach at hpassed
      rw [List.cons_append]
      unfold Act.forEach
      cases outcome with
      | error error =>
          rw [Act.bind_of_error _ hturn] at hpassed
          cases hpassed
      | ok =>
          rw [Act.bind_of_ok _ hturn] at hpassed ⊢
          exact ih ((h.namesNoBranch_iff hturn bad).mpr hbad) hpassed

/-- A list of ids that was gone through names branches only. -/
theorem Ending.forEach_known (h : Ending Ended turn) (branchIds : List PyStr)
    {after : Instance W Φ κ β} (hturns : Act.forEach turn branchIds inst = (.ok (), after)) :
    ∀ branchId ∈ branchIds, ¬ NamesNoBranch inst branchId := by
  induction branchIds generalizing inst with
  | nil => exact fun _ hmem => nomatch hmem
  | cons first rest ih =>
      rcases hturn : turn first inst with ⟨outcome, middle⟩
      unfold Act.forEach at hturns
      cases outcome with
      | error error =>
          rw [Act.bind_of_error _ hturn] at hturns
          cases hturns
      | ok =>
          rw [Act.bind_of_ok _ hturn] at hturns
          intro branchId hmem
          rcases List.mem_cons.mp hmem with rfl | hmem
          · exact h.known hturn
          · exact fun hbad => ih hturns branchId hmem
              ((h.namesNoBranch_iff hturn branchId).mpr hbad)

/-- The turns in front of the bad id have changed no branch exactly when their
    branches had ended before. -/
theorem Ending.sameBranches_iff (h : Ending Ended turn) (before : List PyStr)
    {after : Instance W Φ κ β} (hpassed : Act.forEach turn before inst = (.ok (), after)) :
    SameBranches inst after ↔ ∀ branchId ∈ before, ∀ book,
      inst.bookkeeping.get? branchId = some book → Ended book.status := by
  constructor
  · intro hsame branchId hmem book hbook
    rcases h.forEach_ended before hpassed branchId (.inl hmem) with ⟨book', hbook', hended⟩
    rw [hsame.bookkeeping, hbook] at hbook'
    cases hbook'
    exact hended
  · intro hended
    have hidle : ∀ branchId ∈ before, branchId ≠ root ∧
        ∃ book, inst.bookkeeping.get? branchId = some book ∧ Ended book.status := by
      intro branchId hmem
      have hknown := h.forEach_known before hpassed branchId hmem
      unfold NamesNoBranch at hknown
      rw [not_or] at hknown
      rcases Option.ne_none_iff_exists'.mp hknown.2 with ⟨book, hbook⟩
      exact ⟨hknown.1, book, hbook, hended branchId hmem book hbook⟩
    rw [h.forEach_idle before hidle] at hpassed
    cases hpassed
    exact .refl inst

end Ending

/-!
### The two requests

Both end branches in this sense.
-/

section Requests

variable (env : RunEnv W Φ κ β)

/-- The record of a branch that has just ended, and those of the others. -/
theorem get?_ended (inst : Instance W Φ κ β) (branchId : PyStr) (change : Book κ β → Book κ β)
    {status : BookStatus} (hchange : ∀ book, (change book).status = status) :
    (∀ book, inst.bookkeeping.get? branchId = some book → ∃ book',
      (releaseEventRngReference branchId (modifyBook branchId change inst)).bookkeeping.get?
        branchId = some book' ∧ book'.status = status) ∧
    ∀ other, other ≠ branchId →
      (releaseEventRngReference branchId (modifyBook branchId change inst)).bookkeeping.get?
        other = inst.bookkeeping.get? other := by
  have hmodified := fun other => get?_modifyBook branchId other change inst
  unfold releaseEventRngReference
  split
  · refine ⟨fun book hbook => ⟨change book, ?_, hchange book⟩, fun other hother => ?_⟩
    · rw [hmodified branchId, if_pos rfl, hbook]
      rfl
    · rw [hmodified other, if_neg hother]
  · refine ⟨fun book hbook => ⟨{ change book with eventRngPlan := none }, ?_, hchange book⟩,
      fun other hother => ?_⟩
    · rw [get?_modifyBook, if_pos rfl]
      dsimp only
      rw [hmodified branchId, if_pos rfl, hbook]
      rfl
    · rw [get?_modifyBook, if_neg hother]
      dsimp only
      rw [hmodified other, if_neg hother]

/-- A call on the phase leaves the records alone. -/
theorem onPhase_bookkeeping {α : Type} (call : Act PyError (Session W × Phase Φ κ β) α)
    (bookkeeping : Dict PyStr (Book κ β)) :
    Act.Keeps (fun inst => inst.bookkeeping = bookkeeping)
      (onPhase call : Op W Φ κ β α) := by
  refine .of_after fun inst hinst => ?_
  unfold onPhase
  split <;> exact hinst

theorem cancelInternal_bookkeeping (internalId : Option String) (inst : Instance W Φ κ β) :
    (cancelInternal env internalId inst).2.bookkeeping = inst.bookkeeping := by
  have hkeeps : Act.Keeps (fun inst' => inst'.bookkeeping = inst.bookkeeping)
      (cancelInternal env internalId) := by
    cases internalId with
    | none => exact .pure _
    | some internalId =>
        exact Act.Keeps.get.bind fun _ => (Act.Keeps.raiseIf _ _).bind fun _ =>
          onPhase_bookkeeping _ _
  exact hkeeps.after rfl

theorem releaseInternal_bookkeeping (branchId : PyStr) (internalId : Option String)
    (inst : Instance W Φ κ β) :
    (releaseInternal env branchId internalId inst).2.bookkeeping = inst.bookkeeping := by
  have hkeeps : Act.Keeps (fun inst' => inst'.bookkeeping = inst.bookkeeping)
      (releaseInternal env branchId internalId) := by
    cases internalId with
    | none => exact .pure _
    | some internalId =>
        exact Act.Keeps.get.bind fun _ => (Act.Keeps.raiseIf _ _).bind fun _ =>
          (onPhase_bookkeeping _ _).bind fun _ => .modify fun _ hinst => hinst
  exact hkeeps.after rfl

/-- What the two requests share: the checks, and the end of a branch by something
    that may fail and that leaves the records alone. -/
theorem ending_of_turn {Ended : BookStatus → Prop} [DecidablePred Ended]
    {turn : PyStr → Op W Φ κ β Unit} {internal : PyStr → Option String → Op W Φ κ β Unit}
    {status : BookStatus} (hstatus : Ended status)
    (hinternal : ∀ branchId internalId inst,
      (internal branchId internalId inst).2.bookkeeping = inst.bookkeeping)
    (hnone : ∀ inst branchId, branchId ≠ root → inst.bookkeeping.get? branchId = none →
      turn branchId inst = (.error (unknownBranch branchId), inst))
    (hroot : ∀ inst, turn root inst = (.error (rejectionOf root), inst))
    (hsome : ∀ inst branchId book, branchId ≠ root →
      inst.bookkeeping.get? branchId = some book → turn branchId inst =
        Act.onlyIf (¬ Ended book.status) (do
          internal branchId book.internalId
          Act.modify fun inst => releaseEventRngReference branchId
            (modifyBook branchId (fun book => { book with status, view := none }) inst)) inst) :
    Ending Ended turn := by
  refine ⟨fun inst branchId hbad => ?_, fun inst branchId book hne hbook hended => ?_,
    fun inst branchId after hturn => ?_⟩
  -- The root and an unknown branch are refused.
  · by_cases hne : branchId = root
    · rw [hne]
      exact hroot inst
    · rw [hnone inst branchId hne (hbad.resolve_left hne)]
      unfold rejectionOf
      rw [if_neg hne]
  -- A branch that ended already is left alone.
  · rw [hsome inst branchId book hne hbook]
    unfold Act.onlyIf
    rw [if_neg (not_not_intro hended)]
    rfl
  -- A turn that succeeded ended its branch and no other.
  · have hne : branchId ≠ root := by
      rintro rfl
      rw [hroot inst] at hturn
      cases hturn
    cases hbook : inst.bookkeeping.get? branchId with
    | none =>
        rw [hnone inst branchId hne hbook] at hturn
        cases hturn
    | some book =>
        rw [hsome inst branchId book hne hbook] at hturn
        unfold Act.onlyIf at hturn
        by_cases hended : Ended book.status
        · rw [if_neg (not_not_intro hended)] at hturn
          cases hturn
          exact ⟨⟨book, hbook, hended⟩, fun _ _ => rfl⟩
        -- The branch was open: the manager is told first, and its book is ended after that.
        · rw [if_pos hended] at hturn
          have hkept := hinternal branchId book.internalId inst
          rcases hcall : internal branchId book.internalId inst with ⟨outcome, middle⟩
          rw [hcall] at hkept
          cases outcome with
          | error error =>
              rw [Act.bind_of_error _ hcall] at hturn
              cases hturn
          | ok =>
              rw [Act.bind_of_ok _ hcall] at hturn
              cases hturn
              rcases get?_ended middle branchId
                (fun book => { book with status, view := none }) (fun _ => rfl) with
                ⟨hself, hothers⟩
              rcases hself book (by rw [hkept, hbook]) with ⟨book', hbook', hstatus'⟩
              refine ⟨⟨book', hbook', hstatus' ▸ hstatus⟩, fun other hother => ?_⟩
              rw [hothers other hother, hkept]

/-- The statuses of a branch that cancelling leaves alone. -/
def CancelledOrReleased (status : BookStatus) : Prop := status = .cancelled ∨ status = .released

instance : DecidablePred CancelledOrReleased := fun status =>
  inferInstanceAs (Decidable (status = .cancelled ∨ status = .released))

/-- A cancel ends its branches. -/
theorem ending_cancelBranch : Ending CancelledOrReleased (cancelBranch env) := by
  refine ending_of_turn (.inl rfl)
    (fun _ => cancelInternal_bookkeeping env) (fun inst branchId hne hnone => ?_) (fun inst => ?_)
    fun inst branchId book hne hbook => ?_
  · unfold cancelBranch rejectIfRoot Act.raiseIf
    rw [if_neg hne, Act.pure_bind_apply, Act.get_bind, hnone]
    rfl
  · unfold cancelBranch rejectIfRoot Act.raiseIf rejectionOf
    rw [if_pos rfl, if_pos rfl]
    rfl
  · unfold cancelBranch rejectIfRoot Act.raiseIf
    rw [if_neg hne, Act.pure_bind_apply, Act.get_bind, hbook]
    unfold Act.onlyIf CancelledOrReleased
    simp only [not_or]

theorem ending_releaseBranch : Ending (· = .released) (releaseBranch env) := by
  refine ending_of_turn rfl
    (releaseInternal_bookkeeping env) (fun inst branchId hne hnone => ?_) (fun inst => ?_)
    fun inst branchId book hne hbook => ?_
  · unfold releaseBranch rejectIfRoot Act.raiseIf
    rw [if_neg hne, Act.pure_bind_apply, Act.get_bind, hnone]
    rfl
  · unfold releaseBranch rejectIfRoot Act.raiseIf rejectionOf
    rw [if_pos rfl, if_pos rfl]
    rfl
  · unfold releaseBranch rejectIfRoot Act.raiseIf
    rw [if_neg hne, Act.pure_bind_apply, Act.get_bind, hbook]

/-- A request that is rejected for an id has changed nothing exactly when the
    branches in front of that id were cancelled or released before, and for a
    release, released. -/
theorem rejected_unchanged_iff (inst : Instance W Φ κ β) (hmutable : inst.faulted = false)
    (before : List PyStr) (bad : PyStr) (rest : List PyStr) (hbad : NamesNoBranch inst bad) :
    (∀ after, Act.forEach (cancelBranch env) before inst = (.ok (), after) →
      cancelBranches env (before ++ bad :: rest) inst = (.error (rejectionOf bad), after) ∧
      (SameBranches inst after ↔ ∀ branchId ∈ before, ∀ book,
        inst.bookkeeping.get? branchId = some book → CancelledOrReleased book.status)) ∧
    ∀ after, Act.forEach (releaseBranch env) before inst = (.ok (), after) →
      releaseBranches env (before ++ bad :: rest) inst = (.error (rejectionOf bad), after) ∧
      (SameBranches inst after ↔ ∀ branchId ∈ before, ∀ book,
        inst.bookkeeping.get? branchId = some book → book.status = .released) := by
  have hensured : ensureMutable inst = (.ok (), inst) := by
    unfold ensureMutable Act.raiseIf
    rw [Act.get_bind, hmutable]
    rfl
  have hcancel := ending_cancelBranch env
  have hrelease := ending_releaseBranch env
  constructor
  · intro after hpassed
    refine ⟨?_, hcancel.sameBranches_iff before hpassed⟩
    unfold cancelBranches
    rw [Act.bind_of_ok _ hensured, Act.bind_of_error _
      (hcancel.rejected before bad rest hbad hpassed)]
  · intro after hpassed
    refine ⟨?_, hrelease.sameBranches_iff before hpassed⟩
    unfold releaseBranches
    rw [Act.bind_of_ok _ hensured, Act.bind_of_error _
      (hrelease.rejected before bad rest hbad hpassed)]

end Requests

/-!
### A branch at an event

A branch that was played, and two requests of which the second id is refused.
-/

section BranchAtEvent

/-- An event is entered, and a branch of it is played. -/
def branchAtEvent : List Request :=
  [.call (.commitAction "d-root-000001" "7"),
    .call (.emulateAction ⟨"root", "b1", "d-root-000002", "9", 1⟩ none)]

/-- The branch is cancelled by a request that is rejected, and so it is released. -/
theorem rejected_not_unchanged : Constructs eventRun [] 0 {} eventInstance ∧
    NamesNoBranch (Run.final (step eventRun .base) eventInstance branchAtEvent) "b2" ∧
    (cancelBranches eventRun ["b1", "b2"]
      (Run.final (step eventRun .base) eventInstance branchAtEvent)).1 =
        .error (rejectionOf "b2") ∧
    ¬ SameBranches (Run.final (step eventRun .base) eventInstance branchAtEvent)
      (cancelBranches eventRun ["b1", "b2"]
        (Run.final (step eventRun .base) eventInstance branchAtEvent)).2 ∧
    (releaseBranches eventRun ["b1", "b2"]
      (Run.final (step eventRun .base) eventInstance branchAtEvent)).1 =
        .error (rejectionOf "b2") ∧
    ¬ SameBranches (Run.final (step eventRun .base) eventInstance branchAtEvent)
      (releaseBranches eventRun ["b1", "b2"]
        (Run.final (step eventRun .base) eventInstance branchAtEvent)).2 := by
  have hnone : (Run.final (step eventRun .base) eventInstance branchAtEvent).bookkeeping.get?
      "b2" = none := by decide +kernel
  refine ⟨rfl, .inr hnone, ?_, fun hsame => ?_, ?_, fun hsame => ?_⟩
  · decide +kernel
  · have hstatus := congrArg (fun books => (books.get? "b1").map Book.status) hsame.bookkeeping
    revert hstatus
    decide +kernel
  · decide +kernel
  · have hstatus := congrArg (fun books => (books.get? "b1").map Book.status) hsame.bookkeeping
    revert hstatus
    decide +kernel

/-- The instance with the branch, and the instance once the branch is released. -/
def withBranch : Instance Nat Unit Unit Unit :=
  Run.final (step eventRun .base) eventInstance branchAtEvent

/-- The instance after a branch of the event was grown and released. -/
def withReleased : Instance Nat Unit Unit Unit :=
  Run.final (step eventRun .base) eventInstance
    (branchAtEvent ++ [.call (.releaseBranches ["b1"])])

/-- A request that names the branch in front of an unknown one ends the branch, and leaves
    it when it was released before. -/
theorem rejected_unchanged_small :
    (∃ after, cancelBranches eventRun ["b1", "b2"] withBranch =
      (.error (rejectionOf "b2"), after) ∧ ¬ SameBranches withBranch after) ∧
    (∃ after, releaseBranches eventRun ["b1", "b2"] withBranch =
      (.error (rejectionOf "b2"), after) ∧ ¬ SameBranches withBranch after) ∧
    (∃ after, cancelBranches eventRun ["b1", "b2"] withReleased =
      (.error (rejectionOf "b2"), after) ∧ SameBranches withReleased after) ∧
    ∃ after, releaseBranches eventRun ["b1", "b2"] withReleased =
      (.error (rejectionOf "b2"), after) ∧ SameBranches withReleased after := by
  have hunknown : NamesNoBranch withBranch "b2" ∧ NamesNoBranch withReleased "b2" := by
    have hnone : withBranch.bookkeeping.get? "b2" = none ∧
        withReleased.bookkeeping.get? "b2" = none := by decide +kernel
    exact ⟨.inr hnone.1, .inr hnone.2⟩
  have hmutable : withBranch.faulted = false ∧ withReleased.faulted = false := by decide +kernel
  have hbranch : (withBranch.bookkeeping.get? "b1").map Book.status = some .faulted ∧
      (withReleased.bookkeeping.get? "b1").map Book.status = some .released := by decide +kernel
  have hlaw := rejected_unchanged_iff eventRun withBranch hmutable.1 ["b1"] "b2" [] hunknown.1
  have hlaw' := rejected_unchanged_iff eventRun withReleased hmutable.2 ["b1"] "b2" [] hunknown.2
  have hpassed : (∃ after, Act.forEach (cancelBranch eventRun) ["b1"] withBranch =
        (.ok (), after)) ∧
      (∃ after, Act.forEach (releaseBranch eventRun) ["b1"] withBranch = (.ok (), after)) ∧
      (∃ after, Act.forEach (cancelBranch eventRun) ["b1"] withReleased = (.ok (), after)) ∧
      ∃ after, Act.forEach (releaseBranch eventRun) ["b1"] withReleased = (.ok (), after) :=
    ⟨⟨_, rfl⟩, ⟨_, rfl⟩, ⟨_, rfl⟩, _, rfl⟩
  rcases hpassed with ⟨⟨cancelled, hcancelled⟩, ⟨released, hreleased⟩, ⟨cancelled', hcancelled'⟩,
    released', hreleased'⟩
  rcases Option.map_eq_some_iff.mp hbranch.1 with ⟨book, hbook, hstatus⟩
  rcases Option.map_eq_some_iff.mp hbranch.2 with ⟨book', hbook', hstatus'⟩
  -- The one branch in front has the status that it was found with.
  have hother : ∀ branchId ∈ [("b1" : PyStr)], ∀ other,
      withReleased.bookkeeping.get? branchId = some other → other.status = .released := by
    intro branchId hmem other hget
    rw [List.mem_singleton.mp hmem, hbook'] at hget
    cases hget
    exact hstatus'
  refine ⟨⟨cancelled, (hlaw.1 _ hcancelled).1, fun hsame => ?_⟩,
    ⟨released, (hlaw.2 _ hreleased).1, fun hsame => ?_⟩,
    ⟨cancelled', (hlaw'.1 _ hcancelled').1, (hlaw'.1 _ hcancelled').2.mpr
      fun branchId hmem other hget => .inr (hother branchId hmem other hget)⟩,
    ⟨released', (hlaw'.2 _ hreleased').1, (hlaw'.2 _ hreleased').2.mpr hother⟩⟩
  · have hended := (hlaw.1 _ hcancelled).2.mp hsame "b1" (by simp) book hbook
    rw [hstatus] at hended
    exact absurd hended (by decide)
  · have hended := (hlaw.2 _ hreleased).2.mp hsame "b1" (by simp) book hbook
    rw [hstatus] at hended
    cases hended

end BranchAtEvent

end Instance

end WholeRun

end STS2RL
