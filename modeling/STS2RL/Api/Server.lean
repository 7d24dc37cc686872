import STS2RL.Api.SessionLedger

/-!
# The API Server

`RLApiServer`: one strictly ordered request stream for each client session.

The instances are code of other components and may do anything an operation may
do: answer, reject, or raise, from their own state and the state of the world
they share (the emulator). They enter as `InstanceOps`, over a type `ι` of
instances and a type `ω` of worlds. A call returns the instance it leaves
behind also when it raises.

`handleRequest` is the source's function of that name. Its outcome says how the
response came about; the client sees only `Outcome.response?`. The one branch
that executes an operation is the one that answers `Outcome.executed`, so the
executed requests can be read off the outcomes of a run.

## Main definitions

* `InstanceOps`: What the server uses of an instance.
* `Config`, `Server`: The fixed and the changing part of a server.
* `getOrCreateSession`, `admitRequest`: The session half of a request.
* `executeNewRequest`: The instance half of a request.
* `handleRequest`: One request.

## Theorems

* `executeNewRequest_sessions`: Executing an operation touches no session.
* `executeNewRequest_ledger`: It touches of its ledger the instance only.
-/

namespace STS2RL

namespace Api

/-- What the server uses of an instance. -/
structure InstanceOps (ω ι : Type) where
  construct : ω → PyStr → PyStr → Fields → ω × Except PyError ι
  instanceType : ι → Option PyStr
  startInstanceResponse : ω → ι → ω × ι × Except PyError Json
  call : ω → ι → Call → ω × ι × Except PyError Json
  close : ω → ι → ω × ι × Except PyError Unit

/-- The fixed part of a server. -/
structure Config (δ ω ι : Type) where
  maxSessions : Nat
  serverEpoch : PyStr
  hash : Json → δ
  ops : InstanceOps ω ι
  maxSessions_pos : 0 < maxSessions

/-- The changing part of a server. `instanceSerial` is the number the next
    instance gets. -/
structure Server (δ ω ι : Type) where
  sessions : Dict PyStr (SessionLedger δ)
  instances : Dict PyStr ι
  instanceSerial : Nat
  world : ω

/-- How the response to one request came about. -/
inductive Outcome where
  | rejected (response : Fields)
  | replayed (response : Fields)
  | executed (request : Request) (response : Fields)
  | raised (error : PyError)

/-- What the client is sent. -/
def Outcome.response? : Outcome → Option Fields
  | rejected response => some response
  | replayed response => some response
  | executed _ response => some response
  | raised _ => none

/-- How a session answers a request: by itself, or by opening it. -/
inductive Admission (δ : Type) where
  | rejected (rejection : Rejection)
  | raised (error : PyError)
  | replay (response : Fields)
  | execute (ledger : SessionLedger δ)

/-- `STATUS_COMPLETED`. -/
def statusCompleted : String := "completed"

/-- `STATUS_REJECTED`. -/
def statusRejected : String := "rejected"

/-- `STATUS_FAULTED`. -/
def statusFaulted : String := "faulted"

/-- `STATUSES`. -/
def statuses : List String :=
  ["completed", "partial", "queued", "running", "cancelled", "rejected", "faulted", "released"]

/-- `FAULT_EMULATOR_ERROR`. -/
def faultEmulatorError : String := "emulator_error"

/-- `FAULT_INVALID_REQUEST`. -/
def faultInvalidRequest : String := "invalid_request"

/-- `FAULT_UNKNOWN_INSTANCE`. -/
def faultUnknownInstance : String := "unknown_instance"

/-- `FAULT_SESSION_CAPACITY`. -/
def faultSessionCapacity : String := "session_capacity_exceeded"

/-- `FAULT_SESSION_INSTANCE_CONFLICT`. -/
def faultSessionInstanceConflict : String := "session_instance_conflict"

/-- `INSTANCE_TYPE_COMBAT`. -/
def instanceTypeCombat : String := "combat"

/-- `INSTANCE_TYPE_WHOLE_RUN`. -/
def instanceTypeWholeRun : String := "whole_run"

/-- `payload.get(field)`. -/
def getOrNull (payload : Fields) (field : String) : Json :=
  (Dict.lookupL (.text field) payload).getD .null

/-- `dict.update` with one member. -/
def setField (fields : Fields) (field : String) (value : Json) : Fields :=
  Dict.setL (.text field) value fields

/-- A text or `None`. -/
def optStr : Option String → Json
  | none => .null
  | some s => .str (.text s)

/-- Repeat the instance of the request in a response to it. -/
def withInstanceId (payload response : Fields) : Fields :=
  if getOrNull payload "instance_id" = .null then response
  else setField response "instance_id" (getOrNull payload "instance_id")

/-- `fault_response`. -/
def faultResponse (payload : Fields) (error : PyError) : Fields :=
  withInstanceId payload
    [(.text "schema_version", .str (.text schemaVersion)),
      (.text "client_session_id", getOrNull payload "client_session_id"),
      (.text "request_seq", getOrNull payload "request_seq"),
      (.text "request_id", getOrNull payload "request_id"),
      (.text "operation", getOrNull payload "operation"),
      (.text "status", .str (.text statusFaulted)),
      (.text "error", .str (.text error.describe)),
      (.text "fault_kind", .str (.text faultEmulatorError))]

/-- What a response says of a rejection. -/
def rejectionFields (rejection : Rejection) : Fields :=
  [(.text "status", .str (.text statusRejected)),
    (.text "error", .str (.text rejection.error)),
    (.text "fault_kind", optStr rejection.faultKind)]

/-- Decimal digits padded with zeros to six places. -/
def pad6 (n : Nat) : String :=
  String.ofList (List.replicate (6 - (toString n).length) '0') ++ toString n

/-- The id of the instance with a serial number. -/
def instanceIdFor (serial : Nat) : PyStr := .text ("inst-" ++ pad6 serial)

/-- Whether an operation may be called on an instance of the type: only the
    batch operation names its types. -/
def typeAllowed (call : Call) (instanceType : Option PyStr) : Bool :=
  match call with
  | .emulateActions _ _ =>
      instanceType = some (.text instanceTypeCombat) ||
        instanceType = some (.text instanceTypeWholeRun)
  | _ => true

/-- The status of a response. -/
def statusOf : Json → Json
  | .obj fields => getOrNull fields "status"
  | _ => .null

/-- Whether a handler's return value is a response: an object with a status. -/
def validResponse : Json → Option Fields
  | .obj fields =>
      if getOrNull fields "status" ∈ statuses.map (fun s => Json.str (.text s)) then some fields
      else none
  | _ => none

variable {δ ω ι : Type}

namespace Server

/-- A server that has served nothing. -/
def init (world : ω) : Server δ ω ι := ⟨Dict.empty, Dict.empty, 1, world⟩

/-- The last executed sequence number of a session. -/
def lastSeq (server : Server δ ω ι) (sessionId : PyStr) : Nat :=
  ((server.sessions.get? sessionId).map SessionLedger.lastSeq).getD 0

end Server

/-- `_get_or_create_session`. -/
def getOrCreateSession (cfg : Config δ ω ι) (server : Server δ ω ι) (sessionId : PyStr)
    (requestSeq : Nat) : Except Rejection (Server δ ω ι × SessionLedger δ) :=
  match server.sessions.get? sessionId with
  | some existing => pure (server, existing)
  | none =>
      if requestSeq ≠ 1 then
        throw ⟨"request_seq must be 1 for a new session, got " ++ toString requestSeq,
          some faultSessionSequenceGap⟩
      else if cfg.maxSessions ≤ server.sessions.size then
        throw ⟨"RL session capacity exhausted; restart RL or reuse an existing client session",
          some faultSessionCapacity⟩
      else
        pure ({ server with sessions := server.sessions.set sessionId SessionLedger.new },
          SessionLedger.new)

/-- The session half of a request, from an accepted payload to its admission. -/
def admitRequest [DecidableEq δ] (cfg : Config δ ω ι) (server : Server δ ω ι) (request : Request) :
    Server δ ω ι × Admission δ :=
  match getOrCreateSession cfg server request.sessionId request.requestSeq with
  | .error rejection => (server, .rejected rejection)
  | .ok (server, ledger) =>
      match payloadDigest cfg.hash (.obj request.payload) with
      | .error error => (server, .raised error)
      | .ok digest =>
          match ledger.begin request.requestSeq digest with
          | .error rejection => (server, .rejected rejection)
          | .ok (.replay response) => (server, .replay response)
          | .ok (.fresh ledger) =>
              ({ server with sessions := server.sessions.set request.sessionId ledger },
                .execute ledger)

/-- The clean-up of a start that did not answer: close the instance, whatever
    that raises, and forget it. -/
def abandonStart (cfg : Config δ ω ι) (server : Server δ ω ι) (instanceId : PyStr)
    (inst : ι) : Server δ ω ι :=
  { server with
    world := (cfg.ops.close server.world inst).1
    instances := server.instances.erase instanceId }

/-- `_handle_start_instance`, from the construction on. -/
def startInstanceOf (cfg : Config δ ω ι) (server : Server δ ω ι) (instanceType : String)
    (instanceConfig : Fields) : Server δ ω ι × Except PyError Fields :=
  let instanceId := instanceIdFor server.instanceSerial
  let server := { server with instanceSerial := server.instanceSerial + 1 }
  match cfg.ops.construct server.world (.text instanceType) instanceId instanceConfig with
  | (world, .error error) => ({ server with world }, .error error)
  | (world, .ok inst) =>
      let (world, inst, result) := cfg.ops.startInstanceResponse world inst
      let server :=
        { server with world, instances := server.instances.set instanceId inst }
      match result with
      | .error error => (abandonStart cfg server instanceId inst, .error error)
      | .ok response =>
          match response with
          | .obj fields =>
              if getOrNull fields "status" = .str (.text statusCompleted) then
                (server, .ok (setField fields "instance_id" (.str instanceId)))
              else
                (abandonStart cfg server instanceId inst, .error (.raised "TypeError"
                  "start_instance_response must return a completed response"))
          | _ =>
              (abandonStart cfg server instanceId inst, .error (.raised "TypeError"
                "start_instance_response must return a completed response"))

/-- `_handle_start_instance`. A serial number is used up also by a type that is
    not known. -/
def handleStartInstance (cfg : Config δ ω ι) (server : Server δ ω ι) (instanceConfig : Fields) :
    Server δ ω ι × Except PyError Fields :=
  let instanceType := getOrNull instanceConfig "instance_type"
  if instanceType = .str (.text instanceTypeCombat) then
    startInstanceOf cfg server instanceTypeCombat instanceConfig
  else if instanceType = .str (.text instanceTypeWholeRun) then
    startInstanceOf cfg server instanceTypeWholeRun instanceConfig
  else
    ({ server with instanceSerial := server.instanceSerial + 1 },
      .error (.rejected (reject ("unknown instance_config.instance_type " ++
        jsonRepr instanceType))))

/-- `_handle_close_instance`. The instance is gone whether or not its close
    raised. -/
def handleCloseInstance (cfg : Config δ ω ι) (server : Server δ ω ι) (ledger : SessionLedger δ)
    (instanceId : PyStr) (inst : ι) : Server δ ω ι × SessionLedger δ × Json :=
  let (world, _, result) := cfg.ops.close server.world inst
  let response : Fields :=
    match result with
    | .ok () => [(.text "status", .str (.text statusCompleted))]
    | .error error =>
        [(.text "status", .str (.text statusFaulted)),
          (.text "error", .str (.text error.describe)),
          (.text "fault_kind", .str (.text faultEmulatorError))]
  ({ server with world, instances := server.instances.erase instanceId },
    { ledger with activeInstanceId := none }, .obj response)

/-- The instance a session may address. -/
def ownedInstance (server : Server δ ω ι) (ledger : SessionLedger δ) (instanceId : PyStr) :
    Except Rejection ι :=
  if ledger.activeInstanceId ≠ some instanceId then
    throw ⟨"instance_id " ++ pyRepr instanceId ++ " is not owned by this client session",
      some faultSessionInstanceConflict⟩
  else
    match server.instances.get? instanceId with
    | none => throw ⟨"unknown instance_id " ++ pyRepr instanceId, some faultUnknownInstance⟩
    | some inst => pure inst

/-- `_dispatch`. -/
def dispatch (cfg : Config δ ω ι) (server : Server δ ω ι) (instanceId : PyStr) (inst : ι)
    (call : Call) : Server δ ω ι × Except PyError Json :=
  if typeAllowed call (cfg.ops.instanceType inst) = true then
    let (world, inst, result) := cfg.ops.call server.world inst call
    ({ server with world, instances := server.instances.set instanceId inst }, result)
  else
    (server, .error (.rejected (reject ("operation 'emulate_actions' is not supported for " ++
      "instance_type " ++ ((cfg.ops.instanceType inst).map pyRepr).getD "None"))))

/-- `_execute_new_request`, on the ledger the request was opened on. -/
def executeNewRequest (cfg : Config δ ω ι) (server : Server δ ω ι) (ledger : SessionLedger δ)
    (request : Request) : Server δ ω ι × SessionLedger δ × Except PyError Json :=
  match request.body with
  | .startInstance instanceConfig =>
      match ledger.activeInstanceId with
      | some active =>
          (server, ledger, .error (.rejected
            ⟨"session already owns active instance " ++ pyRepr active,
              some faultSessionInstanceConflict⟩))
      | none =>
          match handleStartInstance cfg server instanceConfig with
          | (server, .error error) => (server, ledger, .error error)
          | (server, .ok response) =>
              let ledger :=
                match getOrNull response "instance_id" with
                | .str s =>
                    if s.isEmpty then ledger else { ledger with activeInstanceId := some s }
                | _ => ledger
              (server, ledger, .ok (.obj response))
  | .closeInstance instanceId =>
      match ownedInstance server ledger instanceId with
      | .error rejection => (server, ledger, .error (.rejected rejection))
      | .ok inst =>
          let (server, ledger, response) := handleCloseInstance cfg server ledger instanceId inst
          (server, ledger, .ok response)
  | .onInstance instanceId call =>
      match ownedInstance server ledger instanceId with
      | .error rejection => (server, ledger, .error (.rejected rejection))
      | .ok inst =>
          let (server, result) := dispatch cfg server instanceId inst call
          (server, ledger, result)

/-- `_wrap`: correlation and transport identity are written last. -/
def wrap (cfg : Config δ ω ι) (payload response : Fields) : Fields :=
  let wrapped := setField response "schema_version" (.str (.text schemaVersion))
  let wrapped := setField wrapped "server_epoch" (.str cfg.serverEpoch)
  let wrapped := setField wrapped "client_session_id" (getOrNull payload "client_session_id")
  let wrapped := setField wrapped "request_seq" (getOrNull payload "request_seq")
  let wrapped := setField wrapped "request_id" (getOrNull payload "request_id")
  let wrapped := setField wrapped "operation" (getOrNull payload "operation")
  withInstanceId payload wrapped

/-- `_rejected`. -/
def rejectedResponse (cfg : Config δ ω ι) (payload : Fields) (rejection : Rejection) : Fields :=
  wrap cfg payload (rejectionFields rejection)

/-- The response to an executed request: a rejection, an exception or a return
    value that is no response become one. -/
def terminalResponse (cfg : Config δ ω ι) (payload : Fields) (result : Except PyError Json) :
    Fields :=
  let response : Json :=
    match result with
    | .ok response => response
    | .error (.rejected rejection) => .obj (rejectionFields rejection)
    | .error error => .obj (faultResponse payload error)
  wrap cfg payload <|
    match validResponse response with
    | some fields => fields
    | none =>
        faultResponse payload (.raised "TypeError"
          ("RL handler returned invalid response status " ++ jsonRepr (statusOf response)))

/-- `handle_request`. A payload that is no object has no `get`, and the response
    to its rejection raises. -/
def handleRequest [DecidableEq δ] (cfg : Config δ ω ι) (server : Server δ ω ι)
    (payload : Json) : Server δ ω ι × Outcome :=
  match payload with
  | .obj fields =>
      match validateRequest payload with
      | .error rejection =>
          (server, .rejected (rejectedResponse cfg fields
            ⟨rejection.error, some (rejection.faultKind.getD faultInvalidRequest)⟩))
      | .ok request =>
          match admitRequest cfg server request with
          | (server, .rejected rejection) =>
              (server, .rejected (rejectedResponse cfg fields rejection))
          | (server, .raised error) => (server, .raised error)
          | (server, .replay response) => (server, .replayed response)
          | (server, .execute ledger) =>
              let (server, ledger, result) := executeNewRequest cfg server ledger request
              let response := terminalResponse cfg fields result
              ({ server with
                  sessions := server.sessions.set request.sessionId (ledger.complete response) },
                .executed request response)
  | other =>
      (server, .raised (.raised "AttributeError"
        (pyRepr (typeName other) ++ " object has no attribute 'get'")))

theorem startInstanceOf_sessions (cfg : Config δ ω ι) (server : Server δ ω ι)
    (instanceType : String) (instanceConfig : Fields) :
    (startInstanceOf cfg server instanceType instanceConfig).1.sessions = server.sessions := by
  unfold startInstanceOf
  dsimp only
  split
  · rfl
  · split
    · rfl
    · split
      · split <;> rfl
      · rfl

theorem handleStartInstance_sessions (cfg : Config δ ω ι) (server : Server δ ω ι)
    (instanceConfig : Fields) :
    (handleStartInstance cfg server instanceConfig).1.sessions = server.sessions := by
  unfold handleStartInstance
  simp only []
  split
  · exact startInstanceOf_sessions cfg server _ _
  · split
    · exact startInstanceOf_sessions cfg server _ _
    · rfl

/-- Executing an operation touches no session. -/
theorem executeNewRequest_sessions (cfg : Config δ ω ι) (server : Server δ ω ι)
    (ledger : SessionLedger δ) (request : Request) :
    (executeNewRequest cfg server ledger request).1.sessions = server.sessions := by
  unfold executeNewRequest
  split
  · rename_i instanceConfig _
    have hstart := handleStartInstance_sessions cfg server instanceConfig
    split
    · rfl
    · split
      · rename_i heq
        rwa [heq] at hstart
      · rename_i heq
        rwa [heq] at hstart
  · split <;> rfl
  · split
    · rfl
    · simp only [dispatch]
      split <;> rfl

/-- Executing an operation touches of its ledger the active instance only. -/
theorem executeNewRequest_ledger (cfg : Config δ ω ι) (server : Server δ ω ι)
    (ledger : SessionLedger δ) (request : Request) :
    ∃ active, (executeNewRequest cfg server ledger request).2.1 =
      { ledger with activeInstanceId := active } := by
  unfold executeNewRequest
  split
  · split
    · exact ⟨ledger.activeInstanceId, rfl⟩
    · split
      · exact ⟨ledger.activeInstanceId, rfl⟩
      · dsimp only
        split
        · rename_i s _
          split
          · exact ⟨ledger.activeInstanceId, rfl⟩
          · exact ⟨some s, rfl⟩
        · exact ⟨ledger.activeInstanceId, rfl⟩
  · split
    · exact ⟨ledger.activeInstanceId, rfl⟩
    · exact ⟨none, rfl⟩
  · split <;> exact ⟨ledger.activeInstanceId, rfl⟩

end Api

end STS2RL
