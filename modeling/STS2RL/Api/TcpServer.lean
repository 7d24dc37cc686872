import STS2RL.Core.JsonText
import STS2RL.Core.Run
import STS2RL.Api.Server

/-!
# The TCP Server

One connection of `AsyncioTcpServer`: a line of JSON for each message, a
handshake that binds the stream to one session, and API traffic for that session
only.

What the stream gives to `readline`, what a handler comes to, and whether a
write reaches the client are up to the rest of the world, so they come with each
event. `json.loads` is a parameter: nothing here depends on what it accepts.

## Main definitions

* `Received`, `Connection`: What comes in, and the state of the loop.
* `readLine`, `handleHello`, `callHandler`: The parts of the loop.
* `clientStep`: One round of `_handle_client`.
* `ValidHello`: The handshake that binds a session.

## Theorems

* `clientStep_cases`: What one round can do.
* `stream_binding`: What the loop promises of every sequence of lines.
-/

namespace STS2RL

namespace Api

/-- What `reader.readline()` gives: the bytes of a line, those that are left at the
    end of the stream, or none because they exceed the limit. -/
inductive Readline where
  | line (bytes : List UInt8)
  | overrun

/-- What `json.loads` comes to. An error that is not of the bytes or of the text is
    not caught. -/
inductive Loaded where
  | value (json : Json)
  | invalid (error : String)
  | raised

/-- One round of the loop: what is read, what the handler comes to if it is called
    (nothing when the task is cancelled meanwhile), and whether what is written
    reaches the client. -/
structure Received where
  readline : Readline
  answer : Option (Except PyError Json)
  drained : Bool

/-- What a handler of connections is given. -/
structure TcpConfig where
  serverEpoch : PyStr
  maxMessageBytes : Nat
  loads : List UInt8 → Loaded

/-- The state of `_handle_client`. `handled` are the payloads the handler was given,
    and `written` the lines that were written. -/
structure Connection where
  helloSessionId : Option PyStr := none
  isOpen : Bool := true
  handled : List Fields := []
  written : List (List Char) := []

/-- The end of a frame. -/
def newline : UInt8 := 10

/-- `_write_response`. A response that cannot be encoded ends the loop, and so does a
    connection that is gone. -/
def writeResponse (response : Fields) (drained : Bool) (conn : Connection) : Connection :=
  if (Json.obj response).encodable = true then
    { conn with
      written := conn.written ++ [(Json.obj response).dumps ++ ['\n']]
      isOpen := drained }
  else { conn with isOpen := false }

/-- An answer that refuses a frame. -/
def transportError (kind : String) (rest : Fields) : Fields :=
  (.text "transport_error", .str (.text kind)) :: rest

/-- The text of an error, as a member. -/
def errorMember (error : String) : PyStr × Json := (.text "error", .str (.text error))

/-- `_read_line`. No bytes end the loop. -/
def readLine (cfg : TcpConfig) (event : Received) (conn : Connection) :
    Connection × List UInt8 :=
  let tooLarge := writeResponse
    (transportError "message_too_large"
      [(.text "direction", .str (.text "request")),
        (.text "max_message_bytes", .int cfg.maxMessageBytes)]) event.drained conn
  match event.readline with
  | .overrun => (tooLarge, [])
  | .line bytes =>
      if bytes = [] then (conn, [])
      else if bytes.length ≤ cfg.maxMessageBytes then
        if bytes.getLast? = some newline then (conn, bytes) else (conn, [])
      else (tooLarge, [])

/-- The members of a hello, no more and no fewer. -/
def helloKeys : List PyStr :=
  [.text "transport_operation", .text "schema_version", .text "client_session_id"]

/-- `set(payload) == required_keys`. -/
def hasHelloKeys (payload : Fields) : Bool :=
  (payload.map Prod.fst).all (fun key => key ∈ helloKeys) &&
    helloKeys.all fun key => key ∈ payload.map Prod.fst

/-- `_handle_hello`: the response, and the session that is bound. -/
def handleHello (cfg : TcpConfig) (payload : Fields) (current : Option PyStr) :
    Fields × Option PyStr :=
  if hasHelloKeys payload = false then
    (transportError "invalid_hello" [errorMember
      ("hello must contain exactly transport_operation, schema_version, and " ++
        "client_session_id")], none)
  else
    match getOrNull payload "client_session_id" with
    | .str sessionId =>
        if sessionId.isEmpty then
          (transportError "invalid_hello"
            [errorMember "client_session_id must be a non-empty string"], none)
        else if getOrNull payload "schema_version" ≠ .str (.text schemaVersion) then
          (transportError "unsupported_schema"
            [(.text "requested_schema_version", getOrNull payload "schema_version"),
              (.text "supported_schema_version", .str (.text schemaVersion))], none)
        else if current.isSome ∧ current ≠ some sessionId then
          (transportError "session_mismatch"
            [errorMember "one TCP stream may bind only one client_session_id"], none)
        else
          ([(.text "transport_operation", .str (.text "hello")),
            (.text "schema_version", .str (.text schemaVersion)),
            (.text "server_epoch", .str cfg.serverEpoch),
            (.text "client_session_id", .str sessionId)], some sessionId)
    | _ =>
        (transportError "invalid_hello"
          [errorMember "client_session_id must be a non-empty string"], none)

/-- `_call_handler`, and what the loop makes of it. -/
def callHandler (event : Received) (payload : Fields) (conn : Connection) : Connection :=
  let conn := { conn with handled := conn.handled ++ [payload] }
  match event.answer with
  | none => { conn with isOpen := false }
  | some (.error error) => writeResponse (faultResponse payload error) event.drained conn
  | some (.ok (.obj response)) => writeResponse response event.drained conn
  | some (.ok _) =>
      writeResponse
        (faultResponse payload (.raised "TypeError" "RL handler returned a non-dict response"))
        event.drained conn

/-- What the loop does with an object. -/
def handlePayload (cfg : TcpConfig) (event : Received) (payload : Fields) (conn : Connection) :
    Connection :=
  if payload = [(.text "transport_operation", .str (.text "ping"))] then
    writeResponse
      [(.text "transport_operation", .str (.text "pong")),
        (.text "server_epoch", .str cfg.serverEpoch)] event.drained conn
  else if getOrNull payload "transport_operation" = .str (.text "hello") then
    let (response, bound) := handleHello cfg payload conn.helloSessionId
    writeResponse response event.drained
      { conn with helloSessionId := bound.or conn.helloSessionId }
  else
    match conn.helloSessionId with
    | none =>
        writeResponse (transportError "hello_required"
          [errorMember "send transport hello before API traffic"]) event.drained conn
    | some sessionId =>
        if getOrNull payload "client_session_id" ≠ .str sessionId then
          writeResponse (transportError "session_mismatch"
            [errorMember "API client_session_id differs from stream hello"]) event.drained conn
        else callHandler event payload conn

/-- One round of `_handle_client`. -/
def clientStep (cfg : TcpConfig) (conn : Connection) (event : Received) : Connection × Unit :=
  if conn.isOpen = false then (conn, ())
  else
    match readLine cfg event conn with
    | (conn, []) => ({ conn with isOpen := false }, ())
    | (conn, bytes) =>
        match cfg.loads bytes with
        | .raised => ({ conn with isOpen := false }, ())
        | .invalid error =>
            (writeResponse (transportError "invalid_json" [errorMember error]) event.drained conn,
              ())
        | .value (.obj payload) => (handlePayload cfg event payload conn, ())
        | .value _ =>
            (writeResponse (transportError "invalid_message"
              [errorMember "top-level JSON value must be an object"]) event.drained conn, ())

/-- The handshake for a session. -/
def ValidHello (payload : Fields) (sessionId : PyStr) : Prop :=
  hasHelloKeys payload = true ∧ sessionId.isEmpty = false ∧
    getOrNull payload "transport_operation" = .str (.text "hello") ∧
    getOrNull payload "schema_version" = .str (.text schemaVersion) ∧
    getOrNull payload "client_session_id" = .str sessionId

/-- A whole line within the limit that holds the object. -/
def Frames (cfg : TcpConfig) (event : Received) (payload : Fields) : Prop :=
  ∃ bytes, event.readline = .line bytes ∧ bytes.length ≤ cfg.maxMessageBytes ∧
    bytes.getLast? = some newline ∧ cfg.loads bytes = .value (.obj payload)

section Steps

variable {cfg : TcpConfig} {conn conn' : Connection} {event : Received} {payload : Fields}

/-- One response more at most, and nothing else but the end of the loop. -/
def Answers (conn conn' : Connection) : Prop :=
  (conn'.written = conn.written ∨ ∃ line, conn'.written = conn.written ++ [line]) ∧
    conn'.handled = conn.handled ∧ conn'.helloSessionId = conn.helloSessionId

theorem answers_writeResponse (response : Fields) (drained : Bool) (conn : Connection) :
    Answers conn (writeResponse response drained conn) := by
  unfold writeResponse
  split
  · exact ⟨.inr ⟨_, rfl⟩, rfl, rfl⟩
  · exact ⟨.inl rfl, rfl, rfl⟩

variable (cfg conn event) in
/-- Reading a line answers at most once. -/
theorem answers_readLine :
    Answers conn (readLine cfg event conn).1 ∧
      ((readLine cfg event conn).2 ≠ [] → (readLine cfg event conn).1 = conn ∧
        event.readline = .line (readLine cfg event conn).2 ∧
        (readLine cfg event conn).2.length ≤ cfg.maxMessageBytes ∧
        (readLine cfg event conn).2.getLast? = some newline) := by
  unfold readLine
  dsimp only
  split
  · exact ⟨answers_writeResponse _ _ _, fun h => absurd rfl h⟩
  · rename_i bytes hreadline
    split
    · exact ⟨⟨.inl rfl, rfl, rfl⟩, fun h => absurd rfl h⟩
    · split
      · rename_i hlength
        split
        · rename_i hlast
          exact ⟨⟨.inl rfl, rfl, rfl⟩, fun _ => ⟨rfl, hreadline, hlength, hlast⟩⟩
        · exact ⟨⟨.inl rfl, rfl, rfl⟩, fun h => absurd rfl h⟩
      · exact ⟨answers_writeResponse _ _ _, fun h => absurd rfl h⟩

/-- A session is bound by its handshake alone, and only where none is or it is. -/
theorem handleHello_bound {current : Option PyStr} {sessionId : PyStr}
    (hoperation : getOrNull payload "transport_operation" = .str (.text "hello"))
    (h : (handleHello cfg payload current).2 = some sessionId) :
    ValidHello payload sessionId ∧ (current = none ∨ current = some sessionId) := by
  unfold handleHello at h
  split at h
  · cases h
  · rename_i hkeys
    split at h
    · rename_i found hfound
      split at h
      · cases h
      · rename_i hempty
        split at h
        · cases h
        · rename_i hschema
          split at h
          · cases h
          · rename_i hcurrent
            cases h
            refine ⟨⟨by simpa using hkeys, by simpa using hempty, hoperation,
              not_not.mp hschema, hfound⟩, ?_⟩
            cases current with
            | none => exact .inl rfl
            | some bound => exact .inr (not_not.mp fun hne => hcurrent ⟨rfl, hne⟩)
    · cases h

/-- What one round can do: answer, bind a session by its handshake, or give the
    handler a payload of the session that is bound. -/
theorem clientStep_cases (cfg : TcpConfig) (conn : Connection) (event : Received) :
    Answers conn (clientStep cfg conn event).1 ∨
    (∃ payload sessionId, Frames cfg event payload ∧ ValidHello payload sessionId ∧
      (conn.helloSessionId = none ∨ conn.helloSessionId = some sessionId) ∧
      Answers { conn with helloSessionId := some sessionId } (clientStep cfg conn event).1) ∨
    (∃ payload sessionId, Frames cfg event payload ∧ conn.helloSessionId = some sessionId ∧
      getOrNull payload "client_session_id" = .str sessionId ∧
      Answers { conn with handled := conn.handled ++ [payload] }
        (clientStep cfg conn event).1) := by
  unfold clientStep
  split
  · exact .inl ⟨.inl rfl, rfl, rfl⟩
  · have hread := answers_readLine cfg conn event
    generalize readLine cfg event conn = result at hread
    rcases result with ⟨conn₁, bytes⟩
    rcases hread with ⟨hanswers, hframe⟩
    cases bytes with
    -- Reading the line has answered already, or the peer has gone.
    | nil => exact .inl ⟨hanswers.1, hanswers.2⟩
    | cons byte rest =>
        rcases hframe (by simp) with ⟨hsame, hreadline, hlength, hlast⟩
        dsimp only at hsame hreadline hlength hlast ⊢
        rw [hsame]
        cases hloads : cfg.loads (byte :: rest) with
        | raised => exact .inl ⟨.inl rfl, rfl, rfl⟩
        | invalid error => exact .inl (answers_writeResponse _ _ _)
        | value json =>
            cases json with
            -- A frame with an object: three handlers, each of which answers one line or none.
            | obj payload =>
                have hframes : Frames cfg event payload :=
                  ⟨_, hreadline, hlength, hlast, hloads⟩
                dsimp only
                unfold handlePayload
                split
                · exact .inl (answers_writeResponse _ _ _)
                · split
                  -- A hello binds the connection, if it is valid and names no other session.
                  · rename_i hoperation
                    dsimp only
                    cases hbound : (handleHello cfg payload conn.helloSessionId).2 with
                    | none => exact .inl (answers_writeResponse _ _ _)
                    | some sessionId =>
                        rcases handleHello_bound hoperation hbound with ⟨hvalid, hcurrent⟩
                        exact .inr (.inl ⟨payload, sessionId, hframes, hvalid, hcurrent,
                          answers_writeResponse _ _ _⟩)
                  -- Everything else is refused without a hello.
                  · split
                    · exact .inl (answers_writeResponse _ _ _)
                    · rename_i sessionId hsession
                      -- And so is a request that names another session than the hello did.
                      split
                      · exact .inl (answers_writeResponse _ _ _)
                      · rename_i hclient
                        refine .inr (.inr ⟨payload, sessionId, hframes, hsession,
                          not_not.mp hclient, ?_⟩)
                        unfold callHandler
                        dsimp only
                        split
                        · exact ⟨.inl rfl, rfl, rfl⟩
                        · exact answers_writeResponse _ _ _
                        · exact answers_writeResponse _ _ _
                        · exact answers_writeResponse _ _ _
            | _ => exact .inl (answers_writeResponse _ _ _)

end Steps

section Runs

open Run

variable (cfg : TcpConfig)

/-- The connection after some rounds. -/
abbrev connectionAfter (events : List Received) : Connection := final (clientStep cfg) {} events

/-- Once a session is bound it stays bound. -/
theorem bound_stays {conn : Connection} {sessionId : PyStr}
    (h : conn.helloSessionId = some sessionId) (events : List Received) :
    (final (clientStep cfg) conn events).helloSessionId = some sessionId := by
  refine Run.invariant (clientStep cfg) (I := fun c => c.helloSessionId = some sessionId)
    (fun c event hc => ?_) conn events h
  rcases clientStep_cases cfg c event with hanswers | ⟨payload, bound, -, -, hbound, hanswers⟩ |
    ⟨payload, bound, -, hbound, -, hanswers⟩
  · rw [hanswers.2.2]
    exact hc
  · rw [hanswers.2.2]
    rcases hbound with hnone | hsome
    · rw [hc] at hnone
      cases hnone
    · rw [← hsome]
      exact hc
  · rw [hanswers.2.2]
    exact hc

/-- A session that is bound was bound by a handshake, before which nothing was, and
    the handler was given nothing. Without one it has been given nothing yet. -/
theorem bound_by_hello (events : List Received) :
    match (connectionAfter cfg events).helloSessionId with
    | none => (connectionAfter cfg events).handled = []
    | some sessionId =>
        (∀ payload ∈ (connectionAfter cfg events).handled,
          getOrNull payload "client_session_id" = .str sessionId) ∧
        ∃ before event rest payload, events = before ++ event :: rest ∧
          (connectionAfter cfg before).helloSessionId = none ∧
          (connectionAfter cfg before).handled = [] ∧
          Frames cfg event payload ∧ ValidHello payload sessionId := by
  induction events using List.reverseRecOn with
  | nil => rfl
  | append_singleton before event ih =>
      unfold connectionAfter at ih ⊢
      rw [final_concat]
      rcases clientStep_cases cfg (final (clientStep cfg) {} before) event with
        hanswers | ⟨payload, sessionId, hframes, hvalid, hbound, hanswers⟩ |
        ⟨payload, sessionId, hframes, hbound, hclient, hanswers⟩
      -- The step only answers: the session and the requests handled are the ones there were.
      · rw [hanswers.2.2, hanswers.2.1]
        cases hsession : (final (clientStep cfg) {} before).helloSessionId with
        | none =>
            rw [hsession] at ih
            exact ih
        | some sessionId =>
            rw [hsession] at ih
            rcases ih with ⟨hclients, earlier, hello, rest, payload, rfl, hrest⟩
            exact ⟨hclients, earlier, hello, rest ++ [event], payload, by simp, hrest⟩
      -- A hello binds: either nothing was bound, so nothing was handled, or it is the same
      -- session.
      · rw [hanswers.2.2, hanswers.2.1]
        dsimp only
        rcases hbound with hnone | hsome
        · rw [hnone] at ih
          refine ⟨fun payload hpayload => ?_, before, event, [], payload, rfl, hnone, ih, hframes,
            hvalid⟩
          dsimp only at ih
          rw [ih] at hpayload
          cases hpayload
        · rw [hsome] at ih
          rcases ih with ⟨hclients, earlier, hello, rest, payload', rfl, hrest⟩
          exact ⟨hclients, earlier, hello, rest ++ [event], payload', by simp, hrest⟩
      -- A request was handled: the connection was bound, and the request names its session.
      · rw [hanswers.2.2, hanswers.2.1]
        dsimp only
        rw [hbound] at ih ⊢
        rcases ih with ⟨hclients, earlier, hello, rest, payload', rfl, hrest⟩
        refine ⟨fun payload hpayload => ?_, earlier, hello, rest ++ [event], payload', by simp,
          hrest⟩
        rcases List.mem_append.mp hpayload with hpayload | hpayload
        · exact hclients payload hpayload
        · rw [List.mem_singleton.mp hpayload]
          exact hclient

end Runs

/-- For every sequence of received lines, whatever the handler comes to: the payloads
    it was given name the one session that the connection is bound to, which a
    handshake bound before any of them; what is bound stays bound; a line is answered
    at most once, and the answers are in the order of the lines; and a line gives the
    handler at most the object it holds, and that only when it is whole and within
    the limit. -/
theorem stream_binding (cfg : TcpConfig) (events : List Received) :
    (∀ payload ∈ (connectionAfter cfg events).handled, ∃ sessionId,
      (connectionAfter cfg events).helloSessionId = some sessionId ∧
      getOrNull payload "client_session_id" = .str sessionId) ∧
    (∀ sessionId, (connectionAfter cfg events).helloSessionId = some sessionId →
      (∃ before event rest payload, events = before ++ event :: rest ∧
        (connectionAfter cfg before).helloSessionId = none ∧
        (connectionAfter cfg before).handled = [] ∧
        Frames cfg event payload ∧ ValidHello payload sessionId) ∧
      ∀ later, (connectionAfter cfg (events ++ later)).helloSessionId = some sessionId) ∧
    (∀ event, (connectionAfter cfg (events ++ [event])).written =
        (connectionAfter cfg events).written ∨
      ∃ line, (connectionAfter cfg (events ++ [event])).written =
        (connectionAfter cfg events).written ++ [line]) ∧
    (∀ event, (connectionAfter cfg (events ++ [event])).handled =
        (connectionAfter cfg events).handled ∨
      ∃ payload, Frames cfg event payload ∧
        (connectionAfter cfg (events ++ [event])).handled =
          (connectionAfter cfg events).handled ++ [payload]) := by
  have hbound := bound_by_hello cfg events
  refine ⟨fun payload hpayload => ?_, fun sessionId hsession => ⟨?_, fun later => ?_⟩,
    fun event => ?_, fun event => ?_⟩
  -- An unbound connection has handled nothing.
  · cases hsession : (connectionAfter cfg events).helloSessionId with
    | none =>
        rw [hsession] at hbound
        dsimp only at hbound
        rw [hbound] at hpayload
        cases hpayload
    | some sessionId =>
        rw [hsession] at hbound
        exact ⟨sessionId, rfl, hbound.1 payload hpayload⟩
  · rw [hsession] at hbound
    exact hbound.2
  -- What is bound stays bound.
  · unfold connectionAfter at hsession ⊢
    rw [Run.final_append]
    exact bound_stays cfg hsession later
  -- Each step writes one line or none.
  · unfold connectionAfter
    rw [Run.final_concat]
    rcases clientStep_cases cfg (Run.final (clientStep cfg) {} events) event with
      hanswers | ⟨payload, sessionId, _, _, _, hanswers⟩ | ⟨payload, sessionId, _, _, _, hanswers⟩
    · exact hanswers.1
    · exact hanswers.1
    · exact hanswers.1
  -- And hands over one framed request or none.
  · unfold connectionAfter
    rw [Run.final_concat]
    rcases clientStep_cases cfg (Run.final (clientStep cfg) {} events) event with
      hanswers | ⟨payload, sessionId, _, _, _, hanswers⟩ |
      ⟨payload, sessionId, hframes, _, _, hanswers⟩
    · exact .inl hanswers.2.1
    · exact .inl hanswers.2.1
    · exact .inr ⟨payload, hframes, hanswers.2.1⟩

end Api

end STS2RL
