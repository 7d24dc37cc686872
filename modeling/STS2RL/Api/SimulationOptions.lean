import STS2RL.Api.CombatInstance
import Mathlib.Tactic.Linarith
import Mathlib.Tactic.NormNum

/-!
# The Options of an Emulation

An emulation may carry options. The check of a request looks at them once, and each
instance reads them again: the stop condition before anything is done, the time limit
when the branches are submitted already.

The check takes a `null` for an option that is not there, and the stop condition is
read so. The time limit is not: a `null` is divided by 1000, and so is an integer that
no float holds. What is divided is then a wait of the result queue, and that takes
waits up to some length only.

## Main definitions

* `Call.simulationOptions`, `Call.omitNulls`: The options of a call, and the call
  without those that are `null`.
* `Adequate`: What an accepted call is to be for its instance.
* `TimeFits`: The calls whose time limit can be waited for.

## Theorems

* `validateOptionList_of_accepted`: The options of an accepted call passed their check.
* `combat_call_congr`, `run_call_congr`: An instance sees only
  the stop condition and the time limit.
* `emulateAction_of_unread`: A time limit that cannot be read fails its emulation.
* `adequate_iff`: When an accepted call is adequate.
-/

namespace STS2RL

namespace Api

open STS2RL.Except
open WholeRun (RunEnv)
open WholeRun.Instance (pollTimeout)

variable {α : Type}

/-- The options of a call, if it has any. -/
def Call.simulationOptions : Call → Option Fields
  | .emulateAction _ simulationOptions => simulationOptions
  | .emulateActions _ simulationOptions => simulationOptions
  | _ => none

/-- The call with other options, if it takes any. -/
def Call.withOptions (simulationOptions : Option Fields) : Call → Call
  | .emulateAction item _ => .emulateAction item simulationOptions
  | .emulateActions items _ => .emulateActions items simulationOptions
  | call => call

/-- The options that are not `null`. -/
def withoutNulls (options : Fields) : Fields :=
  options.filter fun entry => Dict.lookupL entry.1 options ≠ some .null

/-- The call with the options left out that it gives as `null`. -/
def Call.omitNulls (call : Call) : Call :=
  call.withOptions (call.simulationOptions.map withoutNulls)

/-- A read that raises nothing, other than the rejection of the request. -/
def ReadsCleanly (read : Except PyError α) : Prop :=
  ∀ typeName message, read ≠ .error (.raised typeName message)

/-- The instances read the options of the call without an error of their own, its
    time limit is one that the result queue can wait for, and an option that is `null`
    does what it does when it is left out. -/
structure Adequate (longestWait : ℚ) (call : Call) : Prop where
  combat_stop : ReadsCleanly (CombatInstance.validateStopCondition call.simulationOptions)
  run_stop : ReadsCleanly (WholeRun.Instance.validateStopCondition call.simulationOptions)
  timeout : ∃ timeout, pollTimeout call.simulationOptions = .ok timeout ∧ 0 < timeout ∧
    timeout ≤ longestWait
  combat_nulls : ∀ {W Φ κ β : Type} (env : CombatEnv W Φ κ β),
    CombatInstance.call env call.omitNulls = CombatInstance.call env call
  run_nulls : ∀ {W Φ κ β : Type} (env : RunEnv W Φ κ β) (facade : WholeRun.Instance.Facade),
    WholeRun.Instance.call env facade call.omitNulls = WholeRun.Instance.call env facade call

/-- A time limit that is given is an integer that a float holds, and no longer than
    the longest wait. -/
def TimeFits (longestWait : ℚ) (call : Call) : Prop :=
  ∀ value, Dict.lookupL (.text "max_time_ms") (call.simulationOptions.getD []) = some value →
    ∃ milliseconds : Int, value = .int milliseconds ∧
      PyNumber.overflowsFloat milliseconds = false ∧ (milliseconds / 1000 : ℚ) ≤ longestWait

/-!
### Requests that are accepted

The options of an accepted request passed their check.
-/

section Accepted

/-- The options that a request is accepted with passed their check. -/
theorem validateOptionList_of_simulationOptions {payload options : Fields}
    (h : validateSimulationOptions payload = .ok (some options)) :
    validateOptionList options = .ok () := by
  unfold validateSimulationOptions at h
  rcases hgiven : Dict.lookupL (.text "simulation_options") payload with _ | value
  · rw [hgiven] at h
    cases h
  · rw [hgiven] at h
    cases value with
    | obj given =>
        rcases (bind_eq_ok _ _ _).mp h with ⟨_, hlist, h⟩
        rcases (bind_eq_ok _ _ _).mp h with ⟨_, -, h⟩
        cases h
        exact hlist
    | _ => cases h

/-- A commit has no options. -/
theorem simulationOptions_of_requireCommit {payload : Fields} {call : Call}
    (h : requireCommit payload = .ok call) : call.simulationOptions = none := by
  unfold requireCommit at h
  rcases (bind_eq_ok _ _ _).mp h with ⟨branchId, -, h⟩
  by_cases hroot : branchId ≠ .text rootBranchId
  · rw [if_pos hroot] at h
    cases h
  · rw [if_neg hroot] at h
    rcases (bind_eq_ok _ _ _).mp h with ⟨rngId, -, h⟩
    by_cases hrng : rngId ≠ rootRngId
    · rw [if_pos hrng] at h
      cases h
    · rw [if_neg hrng] at h
      rcases (bind_eq_ok _ _ _).mp h with ⟨_, -, h⟩
      rcases (bind_eq_ok _ _ _).mp h with ⟨_, -, h⟩
      cases h
      rfl

/-- A request for branches has its options checked. -/
theorem validateOptionList_of_requireEmulate {payload options : Fields} {call : Call}
    (h : requireEmulate payload = .ok call) (hoptions : call.simulationOptions = some options) :
    validateOptionList options = .ok () := by
  unfold requireEmulate at h
  rcases (bind_eq_ok _ _ _).mp h with ⟨_, -, h⟩
  rcases (bind_eq_ok _ _ _).mp h with ⟨_, -, h⟩
  rcases (bind_eq_ok _ _ _).mp h with ⟨rngId, -, h⟩
  by_cases hrng : rngId ≤ 0
  · rw [if_pos hrng] at h
    cases h
  · rw [if_neg hrng] at h
    rcases (bind_eq_ok _ _ _).mp h with ⟨_, -, h⟩
    rcases (bind_eq_ok _ _ _).mp h with ⟨_, -, h⟩
    rcases (bind_eq_ok _ _ _).mp h with ⟨given, hgiven, h⟩
    cases h
    exact validateOptionList_of_simulationOptions (hgiven.trans (congrArg _ hoptions))

/-- The options of an accepted call passed their check. -/
theorem validateOptionList_of_accepted {payload : Json} {request : Request}
    {instanceId : PyStr} {call : Call} {options : Fields}
    (haccepted : validateRequest payload = .ok request)
    (hbody : request.body = .onInstance instanceId call)
    (hoptions : call.simulationOptions = some options) : validateOptionList options = .ok () := by
  cases payload with
  | obj fields =>
      rcases validateRequest_eq_ok fields request haccepted with ⟨header, -, hvalid, -⟩
      rw [hbody] at hvalid
      rcases (bind_eq_ok _ _ _).mp hvalid with ⟨id, -, hcall⟩
      cases hoperation : header.2.2 with
      | emulateAction =>
          rw [hoperation] at hcall
          rcases (bind_eq_ok _ _ _).mp hcall with ⟨emulate, hemulate, h⟩
          cases h
          exact validateOptionList_of_requireEmulate hemulate hoptions
      | emulateActions =>
          rw [hoperation] at hcall
          rcases (bind_eq_ok _ _ _).mp hcall with ⟨_, -, h⟩
          rcases (bind_eq_ok _ _ _).mp h with ⟨given, hgiven, h⟩
          cases h
          exact validateOptionList_of_simulationOptions (hgiven.trans (congrArg _ hoptions))
      | commitAction =>
          rw [hoperation] at hcall
          rcases (bind_eq_ok _ _ _).mp hcall with ⟨commit, hcommit, h⟩
          cases h
          rw [simulationOptions_of_requireCommit hcommit] at hoptions
          cases hoptions
      | startInstance =>
          rw [hoperation] at hcall
          rcases (bind_eq_ok _ _ _).mp hcall with ⟨_, -, h⟩
          cases h
      | closeInstance =>
          rw [hoperation] at hcall
          cases hcall
      | _ =>
          -- The other calls have no options.
          rw [hoperation] at hcall
          rcases (bind_eq_ok _ _ _).mp hcall with ⟨_, -, h⟩
          cases h
          cases hoptions
  | _ => exact absurd haccepted (throw_ne_ok _ _)

/-- A time limit that was accepted is a positive integer, or `null`. -/
theorem maxTime_of_accepted {options : Fields} {value : Json}
    (hoptions : validateOptionList options = .ok ())
    (hgiven : Dict.lookupL (.text "max_time_ms") options = some value) :
    value = .null ∨ ∃ milliseconds : Int, value = .int milliseconds ∧ 0 < milliseconds := by
  have hpassed := (validateOptionList_eq_ok options).mp ((toOption_eq_some _ _).mpr hoptions) _ _
    (Dict.lookupL_mem hgiven)
  have htype : optionType (.text "max_time_ms") = some .int := rfl
  rw [validateOption, htype] at hpassed
  cases value with
  | null => exact .inl rfl
  | int milliseconds =>
      refine .inr ⟨milliseconds, rfl, ?_⟩
      by_contra hnot
      simp [show milliseconds ≤ 0 by omega] at hpassed
  | _ => simp at hpassed

end Accepted

/-!
### Readers

Each reader of the options reads the same without the members that are null.
-/

section Readers

variable {W Φ κ β : Type}

/-- What is given under a key, unless it is `null`. -/
theorem lookup_withoutNulls (key : PyStr) (options : Fields) :
    Dict.lookupL key (withoutNulls options) =
      (Dict.lookupL key options).filter fun value => value ≠ .null := by
  rw [withoutNulls]
  -- The filter keeps all entries of a key or none.
  have hkeep : ∀ rest : Fields,
      Dict.lookupL key (rest.filter fun entry => Dict.lookupL entry.1 options ≠ some .null) =
        if Dict.lookupL key options = some .null then none else Dict.lookupL key rest := by
    intro rest
    induction rest with
    | nil => simp [Dict.lookupL]
    | cons entry rest ih =>
        rcases entry with ⟨k, value⟩
        by_cases hk : k = key
        · subst hk
          by_cases hnull : Dict.lookupL k options = some .null
          · simp only [List.filter_cons, hnull, ne_eq, not_true_eq_false, decide_false,
              Bool.false_eq_true, if_false, ih, if_true]
          · simp [hnull, Dict.lookupL_cons_self]
        · by_cases hnull : Dict.lookupL k options = some .null
          · simp only [List.filter_cons, hnull, ne_eq, not_true_eq_false, decide_false,
              Bool.false_eq_true, if_false, ih, Dict.lookupL_cons_ne hk]
          · simp only [List.filter_cons, hnull, ne_eq, not_false_eq_true, decide_true, if_true,
              Dict.lookupL_cons_ne hk, ih]
  rw [hkeep]
  rcases hvalue : Dict.lookupL key options with _ | value
  · rfl
  · by_cases hnull : value = .null
    · subst hnull
      rfl
    · simp [hnull, Option.filter]

theorem getD_map_withoutNulls (simulationOptions : Option Fields) :
    (simulationOptions.map withoutNulls).getD [] = withoutNulls (simulationOptions.getD []) := by
  cases simulationOptions <;> rfl

/-- A combat instance sees only the stop condition and the time limit. -/
theorem combat_call_congr (env : CombatEnv W Φ κ β) (call : Call)
    {simulationOptions : Option Fields}
    (hstop : CombatInstance.validateStopCondition simulationOptions =
      CombatInstance.validateStopCondition call.simulationOptions)
    (htime : pollTimeout simulationOptions = pollTimeout call.simulationOptions) :
    CombatInstance.call env (call.withOptions simulationOptions) =
      CombatInstance.call env call := by
  cases call with
  | emulateAction item given =>
      simp only [Call.withOptions, CombatInstance.call, CombatInstance.emulateAction,
        CombatInstance.runOne, hstop, htime, Call.simulationOptions]
  | emulateActions items given =>
      simp only [Call.withOptions, CombatInstance.call, CombatInstance.emulateActions,
        CombatInstance.runItems, hstop, htime, Call.simulationOptions]
  | _ => rfl

theorem emulateCombatPhaseActions_congr (env : RunEnv W Φ κ β) (items : List EmulateItem)
    {simulationOptions given : Option Fields}
    (hstop : WholeRun.Instance.validateStopCondition simulationOptions =
      WholeRun.Instance.validateStopCondition given)
    (htime : pollTimeout simulationOptions = pollTimeout given) :
    WholeRun.Instance.emulateCombatPhaseActions env items simulationOptions =
      WholeRun.Instance.emulateCombatPhaseActions env items given := by
  simp only [WholeRun.Instance.emulateCombatPhaseActions, WholeRun.Instance.executeBatch,
    WholeRun.Instance.runBatch, hstop, htime]

/-- An instance of a run sees no more of them. -/
theorem run_call_congr (env : RunEnv W Φ κ β) (facade : WholeRun.Instance.Facade) (call : Call)
    {simulationOptions : Option Fields}
    (hstop : WholeRun.Instance.validateStopCondition simulationOptions =
      WholeRun.Instance.validateStopCondition call.simulationOptions)
    (htime : pollTimeout simulationOptions = pollTimeout call.simulationOptions) :
    WholeRun.Instance.call env facade (call.withOptions simulationOptions) =
      WholeRun.Instance.call env facade call := by
  -- Only the two operations that play read their options, and these read them through the stop
  -- condition and the time.
  cases call with
  | emulateAction item given =>
      have hcombat := emulateCombatPhaseActions_congr env [item] hstop htime
      have hbase : WholeRun.Instance.emulateAction env item simulationOptions =
          WholeRun.Instance.emulateAction env item given := by
        simp only [WholeRun.Instance.emulateAction, WholeRun.Instance.emulateCombatAction,
          WholeRun.Instance.emulateEventAction, hcombat, hstop, Call.simulationOptions]
      cases facade with
      | base => exact hbase
      | beam =>
          simp only [Call.withOptions, WholeRun.Instance.call,
            WholeRun.Instance.Beam.emulateAction, WholeRun.Instance.emulateCombatAction, hcombat,
            hbase, Call.simulationOptions]
  | emulateActions items given =>
      have hcombat := emulateCombatPhaseActions_congr env items hstop htime
      cases facade with
      | base =>
          simp only [Call.withOptions, WholeRun.Instance.call, WholeRun.Instance.emulateActions,
            hcombat, Call.simulationOptions]
      | beam =>
          simp only [Call.withOptions, WholeRun.Instance.call,
            WholeRun.Instance.Beam.emulateActions, hcombat, hstop, Call.simulationOptions]
  | _ => rfl

theorem combat_stop_withoutNulls (simulationOptions : Option Fields) :
    CombatInstance.validateStopCondition (simulationOptions.map withoutNulls) =
      CombatInstance.validateStopCondition simulationOptions := by
  unfold CombatInstance.validateStopCondition
  rw [getD_map_withoutNulls, lookup_withoutNulls]
  rcases hgiven : Dict.lookupL (.text "stop_condition") (simulationOptions.getD []) with _ | value
  · rw [hgiven]
    rfl
  · rw [hgiven]
    cases value <;> rfl

theorem run_stop_withoutNulls (simulationOptions : Option Fields) :
    WholeRun.Instance.validateStopCondition (simulationOptions.map withoutNulls) =
      WholeRun.Instance.validateStopCondition simulationOptions := by
  unfold WholeRun.Instance.validateStopCondition
  rw [getD_map_withoutNulls, lookup_withoutNulls]
  rcases hgiven : Dict.lookupL (.text "stop_condition") (simulationOptions.getD []) with _ | value
  · rw [hgiven]
    rfl
  · rw [hgiven]
    cases value <;> rfl

/-- A time limit that is not `null` is the same without the `null` options. -/
theorem pollTimeout_withoutNulls {simulationOptions : Option Fields}
    (hgiven : Dict.lookupL (.text "max_time_ms") (simulationOptions.getD []) ≠ some .null) :
    pollTimeout (simulationOptions.map withoutNulls) = pollTimeout simulationOptions := by
  unfold WholeRun.Instance.pollTimeout
  rw [getD_map_withoutNulls, lookup_withoutNulls]
  rcases hvalue : Dict.lookupL (.text "max_time_ms") (simulationOptions.getD []) with _ | value
  · rw [hvalue]
    rfl
  · rw [hvalue, Option.filter_some, if_pos]
    rw [hvalue] at hgiven
    simpa using hgiven

theorem readsCleanly_ok (a : α) : ReadsCleanly (.ok a) := fun _ _ => (nomatch ·)

theorem readsCleanly_rejected (rejection : Rejection) :
    ReadsCleanly (.error (.rejected rejection) : Except PyError α) := fun _ _ => (nomatch ·)

theorem readsCleanly_combat_stop (simulationOptions : Option Fields) :
    ReadsCleanly (CombatInstance.validateStopCondition simulationOptions) := by
  unfold CombatInstance.validateStopCondition
  split
  · exact readsCleanly_ok _
  · exact readsCleanly_ok _
  · split
    · exact readsCleanly_ok _
    · exact readsCleanly_rejected _

theorem readsCleanly_run_stop (simulationOptions : Option Fields) :
    ReadsCleanly (WholeRun.Instance.validateStopCondition simulationOptions) := by
  unfold WholeRun.Instance.validateStopCondition
  split
  · exact readsCleanly_ok _
  · exact readsCleanly_ok _
  · split
    · exact readsCleanly_ok _
    · exact readsCleanly_rejected _

/-- What a time limit that is read was given as. -/
theorem pollTimeout_eq_ok {simulationOptions : Option Fields} {timeout : ℚ} {value : Json}
    (hread : pollTimeout simulationOptions = .ok timeout)
    (hgiven : Dict.lookupL (.text "max_time_ms") (simulationOptions.getD []) = some value) :
    ∃ milliseconds : Int, value = .int milliseconds ∧
      PyNumber.overflowsFloat milliseconds = false ∧ timeout = milliseconds / 1000 := by
  unfold WholeRun.Instance.pollTimeout at hread
  rw [hgiven] at hread
  cases value with
  | int milliseconds =>
      dsimp only at hread
      by_cases hlarge : PyNumber.overflowsFloat milliseconds = true
      · rw [if_pos hlarge] at hread
        cases hread
      · rw [if_neg hlarge] at hread
        cases hread
        exact ⟨milliseconds, rfl, by simpa using hlarge, rfl⟩
  | _ => cases hread

/-!
### Requests that do not read them

Some requests never come to the limit.
-/

section Unread

variable {simulationOptions : Option Fields} {error : PyError}

/-- A time limit that cannot be read fails the emulation, which has submitted its branch
    by then. -/
theorem emulateAction_of_unread (env : CombatEnv W Φ κ β) (item : EmulateItem)
    (hunread : pollTimeout simulationOptions = .error error) :
    (CombatInstance.emulateAction env item simulationOptions).Fails := by
  have hrun : ∀ internalId,
      (CombatInstance.runOne env simulationOptions item internalId).Fails := fun _ =>
    .bind fun _ => .bind fun _ => .bind fun _ => (Act.Fails.ofExcept hunread).andThen _
  exact .bind fun _ => .bind fun _ => .bind fun _ => .bind fun _ => .bind fun _ => .bind fun _ =>
    .bind fun _ => .bind fun _ => .bind fun _ => .bind fun internalId => (hrun internalId).onError

theorem emulateActions_of_unread (env : CombatEnv W Φ κ β) (items : List EmulateItem)
    (hunread : pollTimeout simulationOptions = .error error) :
    (CombatInstance.emulateActions env items simulationOptions).Fails := by
  have hrun : ∀ prepared internalIds,
      (CombatInstance.runItems env simulationOptions prepared internalIds).Fails := fun _ _ =>
    .bind fun _ => .bind fun _ => .bind fun _ => (Act.Fails.ofExcept hunread).andThen _
  exact .bind fun _ => .bind fun _ => .bind fun _ => .bind fun _ => .bind fun _ => .bind fun _ =>
    .bind fun _ => .bind fun (prepared, internalIds) => (hrun prepared internalIds).onError

/-- So it does for a batch of a run. -/
theorem executeBatch_of_unread (env : RunEnv W Φ κ β) (phase : WholeRun.Phase Φ κ β)
    (admitted : List (WholeRun.Admitted κ β))
    (hunread : pollTimeout simulationOptions = .error error) :
    (WholeRun.Instance.executeBatch env simulationOptions phase admitted).Fails := by
  have hrun : ∀ prepared internalIds,
      (WholeRun.Instance.runBatch env simulationOptions prepared internalIds).Fails := fun _ _ =>
    .bind fun _ => (Act.Fails.ofExcept hunread).andThen _
  exact .bind fun _ => .bind fun (prepared, internalIds) => (hrun prepared internalIds).onError

end Unread

end Readers

/-!
### The law

The limit of a request fits exactly where it is no number above the longest wait.
-/

section Law

/-- The time limit of an accepted call is read if and only if it fits. -/
theorem timeout_iff {longestWait : ℚ}
    (hdefault : (WholeRun.defaultMaxTimeMs / 1000 : ℚ) ≤ longestWait)
    {call : Call}
    (hoptions : ∀ options, call.simulationOptions = some options →
      validateOptionList options = .ok ()) :
    (∃ timeout, pollTimeout call.simulationOptions = .ok timeout ∧ 0 < timeout ∧
      timeout ≤ longestWait) ↔ TimeFits longestWait call := by
  constructor
  -- A time that is read is a number of milliseconds.
  · rintro ⟨timeout, hread, -, hwait⟩ value hgiven
    rcases pollTimeout_eq_ok hread hgiven with ⟨milliseconds, hvalue, hfloat, rfl⟩
    exact ⟨milliseconds, hvalue, hfloat, hwait⟩
  · intro hfits
    -- Without a time the default is waited for.
    rcases hgiven : Dict.lookupL (.text "max_time_ms") (call.simulationOptions.getD [])
      with _ | value
    · refine ⟨WholeRun.defaultMaxTimeMs / 1000, ?_, by norm_num [WholeRun.defaultMaxTimeMs],
        hdefault⟩
      rw [pollTimeout, hgiven]
    · rcases hfits value hgiven with ⟨milliseconds, rfl, hfloat, hwait⟩
      refine ⟨milliseconds / 1000, ?_, ?_, hwait⟩
      · rw [pollTimeout, hgiven]
        dsimp only
        rw [hfloat]
        rfl
      · -- The check has refused what is not positive.
        rcases hcall : call.simulationOptions with _ | options
        · rw [hcall] at hgiven
          cases hgiven
        · rw [hcall] at hgiven
          rcases maxTime_of_accepted (hoptions options hcall) hgiven with hnull | ⟨_, heq, hpos⟩
          · cases hnull
          · cases heq
            have hpos : (0 : ℚ) < milliseconds := by exact_mod_cast hpos
            linarith

/-- A call that was accepted is adequate if and only if its time limit fits: a limit
    that is `null`, that no float holds or that is longer than the longest wait
    is accepted, and fails its branches once they are submitted. -/
theorem adequate_iff (longestWait : ℚ)
    (hdefault : (WholeRun.defaultMaxTimeMs / 1000 : ℚ) ≤ longestWait) (payload : Json)
    (request : Request) (haccepted : validateRequest payload = .ok request)
    (instanceId : PyStr) (call : Call) (hbody : request.body = .onInstance instanceId call) :
    Adequate longestWait call ↔ TimeFits longestWait call := by
  have htime := timeout_iff hdefault
    (fun options hoptions => validateOptionList_of_accepted haccepted hbody hoptions)
  constructor
  · exact fun hadequate => htime.mp hadequate.timeout
  · intro hfits
    have hnotNull : Dict.lookupL (.text "max_time_ms") (call.simulationOptions.getD []) ≠
        some .null := by
      intro hnull
      rcases hfits _ hnull with ⟨_, hint, -⟩
      cases hint
    exact
      { combat_stop := readsCleanly_combat_stop _
        run_stop := readsCleanly_run_stop _
        timeout := htime.mpr hfits
        combat_nulls := fun env => combat_call_congr env call (combat_stop_withoutNulls _)
          (pollTimeout_withoutNulls hnotNull)
        run_nulls := fun env facade => run_call_congr env facade call (run_stop_withoutNulls _)
          (pollTimeout_withoutNulls hnotNull) }

end Law

/-!
### A limit that is null

A limit that is null is accepted, and fails where it is read.
-/

section NullTimeout

/-- A combat whose branches are logged. -/
def loggedCombat : CombatEnv Nat (List String) Unit Unit where
  phases :=
    { branches :=
        { submitMany := fun _ log => (.ok ["0"], log ++ ["submit"])
          poll := fun _ _ log => (.ok [], log ++ ["poll"])
          branchStatus := fun _ => pure .completed
          activeBranchCount := fun _ => 0
          cancel := fun _ log => (.ok (), log ++ ["cancel"])
          release := fun _ log => (.ok (), log ++ ["release"])
          closeAll := pure ()
          closePool := pure () }
      live := WholeRun.Instance.smallPhases.live
      publicPiles := WholeRun.Instance.smallPhases.publicPiles
      engineState := WholeRun.Instance.smallPhases.engineState
      describe := WholeRun.Instance.smallPhases.describe
      singleHypothesisWorkItem := fun context candidate _ =>
        Combat.WorkItem.fromCandidateRef ⟨fun _ => .null, fun _ => ""⟩ context candidate
          .subBranch none }
  startCombat _ := fun time => (.ok (WholeRun.Instance.smallBattle time), time)
  makeBranches := pure []
  outcome _ := none
  maxBranches := 4

/-- An instance whose world is the list of the calls it answered. -/
def loggedInstance : CombatInstance Nat (List String) Unit Unit where
  session := { world := 0, access := ⟨.combat, some 1, 1, none⟩ }
  phase :=
    { holder := 1
      lease := some ⟨1, .combat, 1⟩
      combat :=
        { session := ()
          rootState := WholeRun.Instance.smallBattle 0
          adoptedIntoRun := false
          heldStableSnapshot := some () }
      branches := [] }
  decisionPoints := DecisionPointRegistry.issue {} WholeRun.root

/-- An emulation with a time limit. -/
def limitedEmulation (limit : Json) : Json :=
  .obj [("schema_version", .str (.text schemaVersion)), ("client_session_id", .str "a"),
    ("request_seq", .int 1), ("request_id", .str (requestIdFor "a" 1)),
    ("operation", .str "emulate_action"), ("instance_id", .str "i1"),
    ("parent_branch_id", .str "root"), ("branch_id", .str "b1"), ("rng_id", .int 1),
    ("decision_point_id", .str "d-root-000001"), ("action_id", .str "9"),
    ("simulation_options", .obj [("max_time_ms", limit)])]

/-- An item that names the action nine at the root. -/
def limitedItem : EmulateItem := ⟨"root", "b1", "d-root-000001", "9", 1⟩

/-- A limit that is `null` is accepted. The branch is submitted, and then the limit is
    read, which raises. Without the limit the branch is polled. -/
theorem null_limit_fails : ∃ request call, validateRequest (limitedEmulation .null) = .ok request ∧
    request.body = .onInstance "i1" call ∧ call = .emulateAction limitedItem (some
      [("max_time_ms", .null)]) ∧
    (∀ longestWait, ¬ Adequate longestWait call) ∧
    (let ended := CombatInstance.emulateAction loggedCombat limitedItem call.simulationOptions
      loggedInstance
     ended.1 = .error (.raised "TypeError"
        "unsupported operand type(s) for /: 'NoneType' and 'float'") ∧
      ended.2.phase.branches = ["submit", "cancel", "release"]) ∧
    (let ended := CombatInstance.emulateAction loggedCombat limitedItem
      call.omitNulls.simulationOptions loggedInstance
     ended.1.toOption.isSome ∧ ended.2.phase.branches = ["submit", "poll"]) := by
  refine ⟨_, _, rfl, rfl, rfl, ?_, by decide +kernel, by decide +kernel⟩
  intro longestWait hadequate
  rcases hadequate.timeout with ⟨timeout, hread, -⟩
  cases hread

theorem adequate_small : ∃ request call,
    validateRequest (limitedEmulation (.int 5000)) = .ok request ∧
    request.body = .onInstance "i1" call ∧ (Adequate 4294967 call ↔ TimeFits 4294967 call) :=
  ⟨_, _, rfl, rfl, adequate_iff 4294967 (by norm_num [WholeRun.defaultMaxTimeMs])
    (limitedEmulation (.int 5000)) _ rfl "i1" _ rfl⟩

end NullTimeout

end Api

end STS2RL
