import STS2RL.Api.PyRepr
import STS2RL.Core.Except

/-!
# Request Validation

`validate_request` of the RL API: what a request payload must hold before it is
addressed to a session. The source checks the payload and hands it on untyped;
here a check that passes returns what it has seen, so an accepted request is a
`Request` and the fields its operation reads are there by construction.

The errors carry the source's texts.

Whether a payload is accepted does not depend on the order of its members
(`validateRequest_sameContent`): every check looks members up by name, and the one
loop over the members of an object asks the same question of each.

## Main definitions

* `Rejection`, `PyError`: The exceptions request handling distinguishes.
* `Operation`, `Call`, `Body`: The operations and what each one reads.
* `Request`: An accepted payload.
* `require`: A required field of a given type.
* `validateRequest`: The checks of a payload, in the order of the source.

## Theorems

* `validateRequest_eq_ok`: The two halves of an accepted request.
* `validateRequest_sameContent`: Acceptance ignores the order of members.
-/

namespace STS2RL

namespace Api

open STS2RL.Except

/-- The members of an object, in order. -/
abbrev Fields := List (PyStr × Json)

/-- `RequestRejected`: the error text and, where the raiser names one, the fault
    kind. -/
structure Rejection where
  error : String
  faultKind : Option String
  deriving DecidableEq, Repr

/-- An exception: a rejection, or any other one by its type name and message. -/
inductive PyError where
  | rejected (rejection : Rejection)
  | raised (typeName : String) (message : String)
  deriving DecidableEq, Repr

/-- The text of `f"{type(exc).__name__}: {exc}"`. -/
def PyError.describe : PyError → String
  | .rejected rejection => "RequestRejected: " ++ rejection.error
  | .raised typeName message => typeName ++ ": " ++ message

/-- A rejection without a fault kind. -/
def reject (error : String) : Rejection := ⟨error, none⟩

mutual

/-- `repr` of a decoded value. -/
def jsonRepr : Json → String
  | .null => "None"
  | .bool b => if b then "True" else "False"
  | .int z => toString z
  | .float r => r
  | .str s => pyRepr s
  | .list xs => "[" ++ String.intercalate ", " (jsonReprList xs) ++ "]"
  | .obj fields => "\x7b" ++ String.intercalate ", " (jsonReprFields fields) ++ "\x7d"

/-- The `repr` of each item. -/
def jsonReprList : List Json → List String
  | [] => []
  | x :: xs => jsonRepr x :: jsonReprList xs

/-- The `repr` of each member. -/
def jsonReprFields : List (PyStr × Json) → List String
  | [] => []
  | (k, v) :: rest => (pyRepr k ++ ": " ++ jsonRepr v) :: jsonReprFields rest

end

/-- `type(value).__name__`. -/
def typeName : Json → String
  | .null => "NoneType"
  | .bool _ => "bool"
  | .int _ => "int"
  | .float _ => "float"
  | .str _ => "str"
  | .list _ => "list"
  | .obj _ => "dict"

/-- The types a required field may be asked to have. -/
inductive PyType where
  | str | int | list | dict
  deriving DecidableEq, Repr

namespace PyType

/-- The type's `__name__`. -/
def name : PyType → String
  | str => "str"
  | int => "int"
  | list => "list"
  | dict => "dict"

/-- The values of a type. -/
abbrev Value : PyType → Type
  | str => PyStr
  | int => Int
  | list => List Json
  | dict => Fields

/-- `isinstance` against the type, with the value it reveals. -/
def cast? : (ty : PyType) → Json → Option ty.Value
  | str, .str s => some s
  | int, .int z => some z
  | list, .list xs => some xs
  | dict, .obj fields => some fields
  | _, _ => none

/-- The sorted form of a value of the type. -/
def sortValue : (ty : PyType) → ty.Value → ty.Value
  | str => id
  | int => id
  | list => Json.sortKeysList
  | dict => Json.sortKeysFields

/-- The empty text, the one value of a right type that is refused. -/
def isEmptyStr : (ty : PyType) → ty.Value → Bool
  | str, s => s.isEmpty
  | _, _ => false

theorem cast?_sortKeys (ty : PyType) (value : Json) :
    ty.cast? value.sortKeys = (ty.cast? value).map ty.sortValue := by
  cases ty <;> cases value <;> rfl

theorem isEmptyStr_sortValue (ty : PyType) (v : ty.Value) :
    ty.isEmptyStr (ty.sortValue v) = ty.isEmptyStr v := by
  cases ty <;> rfl

end PyType

/-- A boolean, which Python counts among the integers. -/
def isBool : Json → Bool
  | .bool _ => true
  | _ => false

/-- `_require`: a field that is present, of the type, and no empty text. -/
def require (payload : Fields) (field : String) (ty : PyType) : Except Rejection ty.Value :=
  match Dict.lookupL (.text field) payload with
  | none => throw (reject ("missing required field " ++ pyRepr field))
  | some value =>
      if ty = .int ∧ isBool value = true then
        throw (reject ("field " ++ pyRepr field ++ " must be an integer, got bool"))
      else
        match ty.cast? value with
        | none =>
            throw (reject ("field " ++ pyRepr field ++ " must be of type " ++ ty.name ++
              ", got " ++ typeName value))
        | some v =>
            if ty.isEmptyStr v then
              throw (reject ("field " ++ pyRepr field ++ " must not be empty"))
            else pure v

/-- A required text. -/
def requireStr (payload : Fields) (field : String) : Except Rejection PyStr :=
  require payload field .str

/-- A required integer. -/
def requireInt (payload : Fields) (field : String) : Except Rejection Int :=
  require payload field .int

/-- `SCHEMA_VERSION`. -/
def schemaVersion : String := "0.8"

/-- `ROOT_BRANCH_ID`. -/
def rootBranchId : String := "root"

/-- `ROOT_RNG_ID`. -/
def rootRngId : Int := 0

/-- The request operations. -/
inductive Operation where
  | startInstance | getDecision | commitAction | emulateAction | emulateActions
  | cancelBranches | releaseBranches | getBranchStatus | closeInstance
  deriving DecidableEq, Repr

namespace Operation

/-- The operation's name in a request. -/
def name : Operation → String
  | startInstance => "start_instance"
  | getDecision => "get_decision"
  | commitAction => "commit_action"
  | emulateAction => "emulate_action"
  | emulateActions => "emulate_actions"
  | cancelBranches => "cancel_branches"
  | releaseBranches => "release_branches"
  | getBranchStatus => "get_branch_status"
  | closeInstance => "close_instance"

/-- The operations of `OPERATIONS`, in the order in which `dto.py` names them. -/
def all : List Operation :=
  [startInstance, getDecision, commitAction, emulateAction, emulateActions, cancelBranches,
    releaseBranches, getBranchStatus, closeInstance]

/-- The operation of a name. -/
def ofName? (s : PyStr) : Option Operation := all.find? (fun op => s = .text op.name)

end Operation

/-- One entry of `emulate_actions.items`. -/
structure EmulateItem where
  parentBranchId : PyStr
  branchId : PyStr
  decisionPointId : PyStr
  actionId : PyStr
  rngId : Int
  deriving DecidableEq, Repr

/-- What an operation on an instance reads from its request. -/
inductive Call where
  | getDecision (branchId : PyStr)
  | commitAction (decisionPointId actionId : PyStr)
  | emulateAction (item : EmulateItem) (simulationOptions : Option Fields)
  | emulateActions (items : List EmulateItem) (simulationOptions : Option Fields)
  | cancelBranches (branchIds : List PyStr)
  | releaseBranches (branchIds : List PyStr)
  | getBranchStatus (branchIds : List PyStr)

/-- An accepted operation with the fields it reads. -/
inductive Body where
  | startInstance (instanceConfig : Fields)
  | onInstance (instanceId : PyStr) (call : Call)
  | closeInstance (instanceId : PyStr)

/-- An accepted payload. -/
structure Request where
  payload : Fields
  sessionId : PyStr
  requestSeq : Nat
  body : Body
  seq_pos : 0 < requestSeq

/-- The type an option of `simulation_options` must have. -/
def optionType (key : PyStr) : Option PyType :=
  if key = .text "stop_condition" then some .str
  else if key = .text "max_depth" ∨ key = .text "max_steps" ∨ key = .text "max_time_ms" ∨
      key = .text "max_hypotheses" then some .int
  else none

/-- `_SUPPORTED_STOP_CONDITIONS`. -/
def supportedStopConditions : List String :=
  ["next_decision", "combat_end", "room_end", "run_end"]

/-- One turn of the loop over `simulation_options`. -/
def validateOption (key : PyStr) (value : Json) : Except Rejection Unit :=
  match optionType key with
  | none => pure ()
  | some ty =>
      if value = .null then pure ()
      else match ty, value with
        | .int, .int z =>
            if z ≤ 0 then
              throw (reject ("simulation_options." ++ pyRepr key ++
                " must be a positive integer"))
            else pure ()
        | .int, _ =>
            throw (reject ("simulation_options." ++ pyRepr key ++ " must be a positive integer"))
        | ty, value =>
            match ty.cast? value with
            | some _ => pure ()
            | none =>
                throw (reject ("simulation_options." ++ pyRepr key ++ " must be of type " ++
                  ty.name))

/-- The options are checked in order, and the first that fails is reported. -/
def validateOptionList : Fields → Except Rejection Unit
  | [] => pure ()
  | (key, value) :: rest => do
      validateOption key value
      validateOptionList rest

/-- The stop condition is `None` or a supported one. -/
def validateStopCondition (options : Fields) : Except Rejection Unit :=
  match Dict.lookupL (.text "stop_condition") options with
  | none | some .null => pure ()
  | some value =>
      if value ∈ supportedStopConditions.map (fun s => Json.str (.text s)) then pure ()
      else throw (reject ("simulation_options.stop_condition " ++ jsonRepr value ++
        " is not supported"))

/-- `_validate_simulation_options`, returning the options if there are any. -/
def validateSimulationOptions (payload : Fields) : Except Rejection (Option Fields) :=
  match Dict.lookupL (.text "simulation_options") payload with
  | none | some .null => pure none
  | some (.obj options) => do
      validateOptionList options
      validateStopCondition options
      pure (some options)
  | some _ => throw (reject "field 'simulation_options' must be an object")

/-- How an item is named in an error. -/
def itemPath (index : Nat) : String := "emulate_actions.items[" ++ toString index ++ "]"

/-- A text field of one item. -/
def itemStr (index : Nat) (item : Fields) (field : String) : Except Rejection PyStr :=
  match Dict.lookupL (.text field) item with
  | some (.str s) =>
      if s.isEmpty then
        throw (reject (itemPath index ++ "." ++ field ++ " must be a non-empty string"))
      else pure s
  | _ => throw (reject (itemPath index ++ "." ++ field ++ " must be a non-empty string"))

/-- The hypothesis of one item. -/
def itemRngId (index : Nat) (item : Fields) : Except Rejection Int :=
  match Dict.lookupL (.text "rng_id") item with
  | some (.int z) =>
      if z ≤ 0 then throw (reject (itemPath index ++ ".rng_id must be a positive integer"))
      else pure z
  | _ => throw (reject (itemPath index ++ ".rng_id must be a positive integer"))

/-- One turn of the loop over the items; `seen` holds the branch ids before it. -/
def validateItem (index : Nat) (seen : List PyStr) (item : Json) : Except Rejection EmulateItem :=
  match item with
  | .obj fields => do
      let parentBranchId ← itemStr index fields "parent_branch_id"
      let branchId ← itemStr index fields "branch_id"
      let decisionPointId ← itemStr index fields "decision_point_id"
      let actionId ← itemStr index fields "action_id"
      let rngId ← itemRngId index fields
      if branchId ∈ seen then
        throw (reject (itemPath index ++ ".branch_id " ++ pyRepr branchId ++
          " is duplicated within this batch"))
      else
        pure ⟨parentBranchId, branchId, decisionPointId, actionId, rngId⟩
  | _ => throw (reject (itemPath index ++ " must be an object"))

/-- The items are checked in order, each against the branch ids before it. -/
def validateItems (index : Nat) (seen : List PyStr) :
    List Json → Except Rejection (List EmulateItem)
  | [] => pure []
  | item :: rest => do
      let first ← validateItem index seen item
      let others ← validateItems (index + 1) (first.branchId :: seen) rest
      pure (first :: others)

/-- `_validate_emulate_actions_items`. -/
def validateEmulateActionsItems (payload : Fields) : Except Rejection (List EmulateItem) := do
  let items ← require payload "items" .list
  if items = [] then throw (reject "emulate_actions.items must be a non-empty list")
  else validateItems 0 [] items

/-- The entries of `branch_ids`. -/
def branchIdList : List Json → Except Rejection (List PyStr)
  | [] => pure []
  | .str s :: rest =>
      if s.isEmpty then throw (reject "every entry in branch_ids must be a non-empty string")
      else do
        let others ← branchIdList rest
        pure (s :: others)
  | _ :: _ => throw (reject "every entry in branch_ids must be a non-empty string")

/-- The branch ids of a request, which are not empty. -/
def requireBranchIds (payload : Fields) : Except Rejection (List PyStr) := do
  let branchIds ← require payload "branch_ids" .list
  if branchIds = [] then throw (reject "branch_ids must be a non-empty list")
  else branchIdList branchIds

/-- The instance configuration of a start request. -/
def requireInstanceConfig (payload : Fields) : Except Rejection Fields := do
  let instanceConfig ← require payload "instance_config" .dict
  if (Dict.lookupL (.text "instance_type") instanceConfig).isNone then
    throw (reject "instance_config.instance_type is required")
  else if (Dict.lookupL (.text "god_mode") instanceConfig).any (fun v => !isBool v) then
    throw (reject "instance_config.god_mode must be of type bool")
  else pure instanceConfig

/-- The fields of a root commit. -/
def requireCommit (payload : Fields) : Except Rejection Call := do
  let branchId ← requireStr payload "branch_id"
  if branchId ≠ .text rootBranchId then
    throw (reject ("commit_action.branch_id must be " ++ pyRepr rootBranchId))
  else
    let rngId ← requireInt payload "rng_id"
    if rngId ≠ rootRngId then
      throw (reject ("commit_action.rng_id must be " ++ toString rootRngId))
    else
      let decisionPointId ← requireStr payload "decision_point_id"
      let actionId ← requireStr payload "action_id"
      pure (.commitAction decisionPointId actionId)

/-- The fields of a single emulation. -/
def requireEmulate (payload : Fields) : Except Rejection Call := do
  let parentBranchId ← requireStr payload "parent_branch_id"
  let branchId ← requireStr payload "branch_id"
  let rngId ← requireInt payload "rng_id"
  if rngId ≤ 0 then throw (reject "emulate_action.rng_id must be positive")
  else
    let decisionPointId ← requireStr payload "decision_point_id"
    let actionId ← requireStr payload "action_id"
    let options ← validateSimulationOptions payload
    pure (.emulateAction ⟨parentBranchId, branchId, decisionPointId, actionId, rngId⟩ options)

/-- The fields an operation reads. -/
def requireCall (payload : Fields) (instanceId : PyStr) : Operation → Except Rejection Body
  | .startInstance => return .startInstance (← requireInstanceConfig payload)
  | .getDecision => do
      let branchId ← requireStr payload "branch_id"
      return .onInstance instanceId (.getDecision branchId)
  | .commitAction => return .onInstance instanceId (← requireCommit payload)
  | .emulateAction => return .onInstance instanceId (← requireEmulate payload)
  | .emulateActions => do
      let items ← validateEmulateActionsItems payload
      let options ← validateSimulationOptions payload
      return .onInstance instanceId (.emulateActions items options)
  | .cancelBranches =>
      return .onInstance instanceId (.cancelBranches (← requireBranchIds payload))
  | .releaseBranches =>
      return .onInstance instanceId (.releaseBranches (← requireBranchIds payload))
  | .getBranchStatus =>
      return .onInstance instanceId (.getBranchStatus (← requireBranchIds payload))
  | .closeInstance => return .closeInstance instanceId

/-- The instance an operation is addressed to; a start has none. -/
def requireInstanceId (payload : Fields) (operation : Operation) : Except Rejection PyStr :=
  if operation = .startInstance then pure (.text "") else requireStr payload "instance_id"

/-- The operation-specific half of `validate_request`. -/
def validateBody (payload : Fields) (operation : Operation) : Except Rejection Body := do
  let instanceId ← requireInstanceId payload operation
  requireCall payload instanceId operation

/-- `request_id_for`. -/
def requestIdFor (sessionId : PyStr) (requestSeq : Int) : PyStr :=
  sessionId.append (":" ++ toString requestSeq)

/-- The half of `validate_request` that every operation shares: the session,
    the sequence number and the operation. -/
def validateHeader (payload : Fields) :
    Except Rejection (PyStr × { seq : Nat // 0 < seq } × Operation) := do
  let version ← requireStr payload "schema_version"
  if version ≠ .text schemaVersion then
    throw (reject ("unsupported schema_version " ++ pyRepr version))
  else
    let sessionId ← requireStr payload "client_session_id"
    let requestSeq : Int ← requireInt payload "request_seq"
    if h : requestSeq ≤ 0 then throw (reject "request_seq must be a positive integer")
    else
      let requestId ← requireStr payload "request_id"
      if requestId ≠ requestIdFor sessionId requestSeq then
        throw (reject ("request_id must equal " ++ pyRepr (requestIdFor sessionId requestSeq) ++
          " for this session/sequence"))
      else
        let operation ← requireStr payload "operation"
        match Operation.ofName? operation with
        | none => throw (reject ("unknown operation " ++ pyRepr operation))
        | some op => pure (sessionId, ⟨requestSeq.toNat, by omega⟩, op)

/-- `validate_request`. -/
def validateRequest : Json → Except Rejection Request
  | .obj payload => do
      let (sessionId, ⟨requestSeq, seq_pos⟩, operation) ← validateHeader payload
      let body ← validateBody payload operation
      pure { payload, sessionId, requestSeq, body, seq_pos }
  | _ => throw (reject "request must be a JSON object (dict)")

theorem isBool_sortKeys (value : Json) : isBool value.sortKeys = isBool value := by
  cases value <;> rfl

/-- A member of the right type is found after the keys were sorted. -/
theorem require_sortKeys (payload : Fields) (field : String) (ty : PyType) :
    (require (Json.sortKeysFields payload) field ty).toOption =
      (require payload field ty).toOption.map ty.sortValue := by
  unfold require
  rw [Json.lookup_sortKeysFields]
  cases Dict.lookupL (.text field) payload with
  | none => rfl
  | some value =>
      simp only [Option.map_some, isBool_sortKeys, PyType.cast?_sortKeys]
      split
      · rfl
      · cases ty.cast? value with
        | none => rfl
        | some v =>
            simp only [Option.map_some, PyType.isEmptyStr_sortValue]
            split <;> rfl

theorem requireStr_sortKeys (payload : Fields) (field : String) :
    (requireStr (Json.sortKeysFields payload) field).toOption =
      (requireStr payload field).toOption := by
  have h := require_sortKeys payload field .str
  rwa [PyType.sortValue, Option.map_id] at h

theorem requireInt_sortKeys (payload : Fields) (field : String) :
    (requireInt (Json.sortKeysFields payload) field).toOption =
      (requireInt payload field).toOption := by
  have h := require_sortKeys payload field .int
  rwa [PyType.sortValue, Option.map_id] at h

theorem itemStr_sortKeys (index : Nat) (item : Fields) (field : String) :
    itemStr index (Json.sortKeysFields item) field = itemStr index item field := by
  unfold itemStr
  rw [Json.lookup_sortKeysFields]
  cases Dict.lookupL (.text field) item with
  | none => rfl
  | some value => cases value <;> rfl

theorem itemRngId_sortKeys (index : Nat) (item : Fields) :
    itemRngId index (Json.sortKeysFields item) = itemRngId index item := by
  unfold itemRngId
  rw [Json.lookup_sortKeysFields]
  cases Dict.lookupL (.text "rng_id") item with
  | none => rfl
  | some value => cases value <;> rfl

theorem validateItem_sortKeys (index : Nat) (seen : List PyStr) (item : Json) :
    validateItem index seen item.sortKeys = validateItem index seen item := by
  cases item with
  | obj fields => simp only [Json.sortKeys, validateItem, itemStr_sortKeys, itemRngId_sortKeys]
  | _ => rfl

theorem validateItems_sortKeys (index : Nat) (seen : List PyStr) (items : List Json) :
    validateItems index seen (Json.sortKeysList items) = validateItems index seen items := by
  induction items generalizing index seen with
  | nil => rfl
  | cons item rest ih =>
      simp only [Json.sortKeysList, validateItems, validateItem_sortKeys, ih]

theorem sortKeysList_eq_nil (xs : List Json) : Json.sortKeysList xs = [] ↔ xs = [] := by
  cases xs <;> simp [Json.sortKeysList]

theorem validateEmulateActionsItems_sortKeys (payload : Fields) :
    (validateEmulateActionsItems (Json.sortKeysFields payload)).toOption =
      (validateEmulateActionsItems payload).toOption := by
  unfold validateEmulateActionsItems
  rw [toOption_bind, toOption_bind, require_sortKeys]
  cases (require payload "items" .list).toOption with
  | none => rfl
  | some items =>
      simp only [Option.map_some, Option.bind_some, PyType.sortValue, sortKeysList_eq_nil,
        validateItems_sortKeys]

theorem branchIdList_sortKeys (xs : List Json) :
    branchIdList (Json.sortKeysList xs) = branchIdList xs := by
  induction xs with
  | nil => rfl
  | cons x xs ih => cases x <;> simp only [Json.sortKeysList, Json.sortKeys, branchIdList, ih]

theorem requireBranchIds_sortKeys (payload : Fields) :
    (requireBranchIds (Json.sortKeysFields payload)).toOption =
      (requireBranchIds payload).toOption := by
  unfold requireBranchIds
  rw [toOption_bind, toOption_bind, require_sortKeys]
  cases (require payload "branch_ids" .list).toOption with
  | none => rfl
  | some xs =>
      simp only [Option.map_some, Option.bind_some, PyType.sortValue, sortKeysList_eq_nil,
        branchIdList_sortKeys]

theorem requireInstanceConfig_sortKeys (payload : Fields) :
    (requireInstanceConfig (Json.sortKeysFields payload)).toOption =
      (requireInstanceConfig payload).toOption.map Json.sortKeysFields := by
  unfold requireInstanceConfig
  rw [toOption_bind, toOption_bind, require_sortKeys]
  cases (require payload "instance_config" .dict).toOption with
  | none => rfl
  | some config =>
      simp only [Option.map_some, Option.bind_some, PyType.sortValue,
        Json.lookup_sortKeysFields, Option.isNone_map, Option.any_map, isBool_sortKeys]
      split
      · rfl
      · split <;> rfl

theorem requireCommit_sortKeys (payload : Fields) :
    (requireCommit (Json.sortKeysFields payload)).toOption =
      (requireCommit payload).toOption := by
  unfold requireCommit
  simp only [toOption_bind, apply_ite Except.toOption, requireStr_sortKeys, requireInt_sortKeys]

theorem validateOption_sortKeys (key : PyStr) (value : Json) :
    validateOption key value.sortKeys = validateOption key value := by
  unfold validateOption
  cases optionType key with
  | none => rfl
  | some ty => cases ty <;> cases value <;> simp [Json.sortKeys, PyType.cast?]

/-- The options are valid if each of them is. -/
theorem validateOptionList_eq_ok (options : Fields) :
    (validateOptionList options).toOption = some () ↔
      ∀ key value, (key, value) ∈ options → (validateOption key value).toOption = some () := by
  induction options with
  | nil => simp [validateOptionList]
  | cons e rest ih =>
      rcases e with ⟨key, value⟩
      rw [validateOptionList, toOption_bind]
      cases hfirst : (validateOption key value).toOption with
      | none =>
          refine ⟨fun h => absurd h (by simp), fun h => ?_⟩
          have hmem := h key value List.mem_cons_self
          rw [hfirst] at hmem
          exact absurd hmem (by simp)
      | some _ =>
          rw [Option.bind_some, ih]
          constructor
          · intro h k v hmem
            rcases List.mem_cons.mp hmem with heq | hrest
            · rw [Prod.mk.injEq] at heq
              rw [heq.1, heq.2, hfirst]
            · exact h k v hrest
          · exact fun h k v hmem => h k v (List.mem_cons_of_mem _ hmem)

/-- And so they are after their keys were sorted. -/
theorem validateOptionList_sortKeys (options : Fields) :
    (validateOptionList (Json.sortKeysFields options)).toOption =
      (validateOptionList options).toOption := by
  have hiff : (validateOptionList (Json.sortKeysFields options)).toOption = some () ↔
      (validateOptionList options).toOption = some () := by
    rw [validateOptionList_eq_ok, validateOptionList_eq_ok]
    constructor
    · intro h key value hmem
      rw [← validateOption_sortKeys]
      exact h key value.sortKeys ((Json.mem_sortKeysFields_iff _ _ _).mpr ⟨value, hmem, rfl⟩)
    · intro h key value hmem
      rcases (Json.mem_sortKeysFields_iff _ _ _).mp hmem with ⟨v, hv, rfl⟩
      rw [validateOption_sortKeys]
      exact h key v hv
  exact Option.ext fun _ => hiff

theorem validateStopCondition_sortKeys (options : Fields) :
    (validateStopCondition (Json.sortKeysFields options)).toOption =
      (validateStopCondition options).toOption := by
  unfold validateStopCondition
  rw [Json.lookup_sortKeysFields]
  cases Dict.lookupL (.text "stop_condition") options with
  | none => rfl
  | some value =>
      cases value with
      | null => rfl
      | _ =>
          simp [Json.sortKeys, apply_ite Except.toOption]

/-- The options of a request are those whose keys are sorted. -/
theorem validateSimulationOptions_sortKeys (payload : Fields) :
    (validateSimulationOptions (Json.sortKeysFields payload)).toOption =
      (validateSimulationOptions payload).toOption.map (Option.map Json.sortKeysFields) := by
  unfold validateSimulationOptions
  rw [Json.lookup_sortKeysFields]
  cases Dict.lookupL (.text "simulation_options") payload with
  | none => rfl
  | some value =>
      cases value with
      | obj options =>
          simp only [Option.map_some, Json.sortKeys, toOption_bind, validateOptionList_sortKeys,
            validateStopCondition_sortKeys, toOption_pure]
          cases (validateOptionList options).toOption with
          | none => rfl
          | some _ => cases (validateStopCondition options).toOption <;> rfl
      | _ => rfl

/-- A request for branches stays one. -/
theorem requireEmulate_sortKeys (payload : Fields) :
    (requireEmulate (Json.sortKeysFields payload)).toOption.isSome =
      (requireEmulate payload).toOption.isSome := by
  unfold requireEmulate
  simp only [toOption_bind, apply_ite Except.toOption, requireStr_sortKeys, requireInt_sortKeys,
    validateSimulationOptions_sortKeys]
  cases (requireStr payload "parent_branch_id").toOption with
  | none => rfl
  | some _ =>
  cases (requireStr payload "branch_id").toOption with
  | none => rfl
  | some _ =>
  cases (requireInt payload "rng_id").toOption with
  | none => rfl
  | some rngId =>
  simp only [Option.bind_some]
  split
  · rfl
  · cases (requireStr payload "decision_point_id").toOption with
    | none => rfl
    | some _ =>
    cases (requireStr payload "action_id").toOption with
    | none => rfl
    | some _ => cases (validateSimulationOptions payload).toOption <;> rfl

/-- And so does any call. -/
theorem requireCall_sortKeys (payload : Fields) (instanceId : PyStr) (operation : Operation) :
    (requireCall (Json.sortKeysFields payload) instanceId operation).toOption.isSome =
      (requireCall payload instanceId operation).toOption.isSome := by
  cases operation with
  | startInstance =>
      simp only [requireCall, isSome_bind_pure, requireInstanceConfig_sortKeys, Option.isSome_map]
  | getDecision => simp only [requireCall, isSome_bind_pure, requireStr_sortKeys]
  | commitAction => simp only [requireCall, isSome_bind_pure, requireCommit_sortKeys]
  | emulateAction => simp only [requireCall, isSome_bind_pure, requireEmulate_sortKeys]
  | emulateActions =>
      simp only [requireCall, toOption_bind, validateEmulateActionsItems_sortKeys,
        validateSimulationOptions_sortKeys]
      cases (validateEmulateActionsItems payload).toOption with
      | none => rfl
      | some items => cases (validateSimulationOptions payload).toOption <;> rfl
  | cancelBranches => simp only [requireCall, isSome_bind_pure, requireBranchIds_sortKeys]
  | releaseBranches => simp only [requireCall, isSome_bind_pure, requireBranchIds_sortKeys]
  | getBranchStatus => simp only [requireCall, isSome_bind_pure, requireBranchIds_sortKeys]
  | closeInstance => rfl

/-- Whether an operation's fields pass does not depend on the order of members. -/
theorem validateBody_sortKeys (payload : Fields) (operation : Operation) :
    (validateBody (Json.sortKeysFields payload) operation).toOption.isSome =
      (validateBody payload operation).toOption.isSome := by
  have hid : (requireInstanceId (Json.sortKeysFields payload) operation).toOption =
      (requireInstanceId payload operation).toOption := by
    unfold requireInstanceId
    rw [apply_ite Except.toOption, apply_ite Except.toOption, requireStr_sortKeys]
  unfold validateBody
  rw [toOption_bind, toOption_bind, hid]
  cases (requireInstanceId payload operation).toOption with
  | none => rfl
  | some instanceId => exact requireCall_sortKeys payload instanceId operation

theorem validateHeader_sortKeys (payload : Fields) :
    (validateHeader (Json.sortKeysFields payload)).toOption =
      (validateHeader payload).toOption := by
  unfold validateHeader
  simp only [toOption_bind, apply_ite Except.toOption, apply_dite Except.toOption,
    requireStr_sortKeys, requireInt_sortKeys]

theorem validateRequest_eq_ok (payload : Fields) (r : Request)
    (h : validateRequest (.obj payload) = .ok r) :
    ∃ header, validateHeader payload = .ok header ∧
      validateBody payload header.2.2 = .ok r.body ∧ r.payload = payload ∧
      r.sessionId = header.1 ∧ r.requestSeq = header.2.1.val := by
  have h' := (toOption_eq_some _ _).mpr h
  simp only [validateRequest, toOption_bind, Option.bind_eq_some_iff, toOption_eq_some,
    toOption_pure, Option.some.injEq] at h'
  rcases h' with ⟨header, hheader, body, hbody, rfl⟩
  exact ⟨header, hheader, hbody, rfl, rfl, rfl⟩

/-- Acceptance, and the session and sequence number a payload is accepted for,
    do not depend on the order of members. -/
theorem validateRequest_sameContent (p q : Json) (r : Request) (hpq : p.SameContent q)
    (hp : validateRequest p = .ok r) :
    ∃ r', validateRequest q = .ok r' ∧ r'.sessionId = r.sessionId ∧
      r'.requestSeq = r.requestSeq := by
  cases p with
  | obj fp =>
      cases q with
      | obj fq =>
          have hsort : Json.sortKeysFields fp = Json.sortKeysFields fq := Json.obj.inj hpq
          rcases validateRequest_eq_ok fp r hp with ⟨header, hh, hb, -, hsid, hseq⟩
          have hh' : validateHeader fq = .ok header := by
            rw [← toOption_eq_some, ← validateHeader_sortKeys, ← hsort, validateHeader_sortKeys,
              toOption_eq_some, hh]
          have hsome : (validateBody fq header.2.2).toOption.isSome = true := by
            rw [← validateBody_sortKeys, ← hsort, validateBody_sortKeys, hb]
            rfl
          rcases Option.isSome_iff_exists.mp hsome with ⟨body, hbody⟩
          rw [toOption_eq_some] at hbody
          refine ⟨⟨fq, header.1, header.2.1.val, body, header.2.1.property⟩, ?_, hsid.symm,
            hseq.symm⟩
          rw [← toOption_eq_some, validateRequest, toOption_bind, hh']
          change ((validateBody fq header.2.2) >>= _).toOption = _
          rw [toOption_bind, hbody]
          rfl
      | _ => exact absurd hpq (by simp [Json.SameContent, Json.sortKeys])
  | _ => exact absurd hp (by simp [validateRequest, throw, throwThe, MonadExceptOf.throw])

end Api

end STS2RL
