import STS2RL.Api.InstanceOwnership

/-!
# The Response to a Start

A start gives the session a new instance, and the response is to name it. The
handler writes the new id into its response. After that the correlation of the
request is written, and a request that carries an instance id of its own has it
repeated there, over the id of the new instance. Nothing in the validation of a
start forbids such a member.

So the response names the instance of the session exactly when the request
carries no instance id, or carries the id that the instance happens to get. A
resend is answered from the ledger, and names what the first answer named.

## Main definitions

* `NamesStarted`: A response that names the instance of its session.
* `idToStart`: The id that the session has, or that the next instance gets.
* `AnswersKept`: What the ledgers remember of a start.
* `startNaming`: A start that carries an instance id.

## Theorems

* `executed_start`: What a start that is carried out answers.
* `handleRequest_replayed`: What a replay is answered from.
* `answersKept_run`: The ledgers in every run.
* `start_response_named_iff`: The law of the response.
-/

namespace STS2RL

namespace Api

open STS2RL.Except

variable {δ ω ι : Type}

/-- A response that names the instance of its session, which is in the table. -/
def NamesStarted (server : Server δ ω ι) (sessionId : PyStr) (response : Fields) : Prop :=
  ∃ instanceId, activeOf server sessionId = some instanceId ∧
    getOrNull response "instance_id" = .str instanceId ∧ server.Holds instanceId

/-- The id of the instance that the session has, or that the next instance gets. -/
def idToStart (server : Server δ ω ι) (sessionId : PyStr) : PyStr :=
  (activeOf server sessionId).getD (instanceIdFor server.instanceSerial)

/-- The instance id in the response to a request that started an instance. -/
def namedInResponse (payload : Fields) (instanceId : PyStr) : Json :=
  if getOrNull payload "instance_id" = .null then .str instanceId
  else getOrNull payload "instance_id"

theorem namedInResponse_eq_iff (payload : Fields) (instanceId : PyStr) :
    namedInResponse payload instanceId = .str instanceId ↔
      getOrNull payload "instance_id" = .null ∨
        getOrNull payload "instance_id" = .str instanceId := by
  unfold namedInResponse
  by_cases h : getOrNull payload "instance_id" = .null
  · simp [h]
  · simp [h]

/-!
### Fields of a response

Which instance a response names, from the members it is built of.
-/

section Fields

theorem getOrNull_setField_self (fields : Fields) (field : String) (value : Json) :
    getOrNull (setField fields field value) field = value := by
  unfold getOrNull setField
  rw [Dict.lookupL_setL_self]
  rfl

theorem getOrNull_setField_ne (fields : Fields) {field other : String} (value : Json)
    (h : other ≠ field) : getOrNull (setField fields field value) other = getOrNull
    fields other := by
  unfold getOrNull setField
  rw [Dict.lookupL_setL_ne _ _ _ _ fun heq => h (PyStr.text.inj heq)]

/-- The instance id of a wrapped response: that of the request, if it carries one. -/
theorem getOrNull_wrap_instanceId (cfg : Config δ ω ι) (payload response : Fields) :
    getOrNull (wrap cfg payload response) "instance_id" =
      if getOrNull payload "instance_id" = .null then getOrNull response "instance_id"
      else getOrNull payload "instance_id" := by
  unfold wrap withInstanceId
  dsimp only
  split
  · repeat rw [getOrNull_setField_ne _ _ (by decide)]
  · exact getOrNull_setField_self _ _ _

/-- Wrapping leaves the status alone. -/
theorem getOrNull_wrap_status (cfg : Config δ ω ι) (payload response : Fields) :
    getOrNull (wrap cfg payload response) "status" = getOrNull response "status" := by
  unfold wrap withInstanceId
  dsimp only
  split
  · repeat rw [getOrNull_setField_ne _ _ (by decide)]
  · repeat rw [getOrNull_setField_ne _ _ (by decide)]

theorem getOrNull_faultResponse_status (payload : Fields) (error : PyError) :
    getOrNull (faultResponse payload error) "status" = .str (.text statusFaulted) := by
  unfold faultResponse withInstanceId
  split
  · rfl
  · rw [getOrNull_setField_ne _ _ (by decide)]
    rfl

end Fields

/-!
### What is answered

A request to start is executed, replayed or refused, and each of the answers names what
the session started, or another member does.
-/

section Executed

/-- A start that succeeds returns a completed response with the new id. -/
theorem startInstanceOf_response {cfg : Config δ ω ι} {server server' : Server δ ω ι}
    {instanceType : String} {instanceConfig response : Fields}
    (h : startInstanceOf cfg server instanceType instanceConfig = (server', .ok response)) :
    getOrNull response "instance_id" = .str (instanceIdFor server.instanceSerial) ∧
      getOrNull response "status" = .str (.text statusCompleted) := by
  unfold startInstanceOf at h
  dsimp only at h
  split at h
  · cases h
  · split at h
    · cases h
    · split at h
      · split at h
        · rename_i fields hstatus
          cases h
          exact ⟨getOrNull_setField_self _ _ _,
            (getOrNull_setField_ne _ _ (by decide)).trans hstatus⟩
        · cases h
      · cases h

theorem handleStartInstance_response {cfg : Config δ ω ι} {server server' : Server δ ω ι}
    {instanceConfig response : Fields}
    (h : handleStartInstance cfg server instanceConfig = (server', .ok response)) :
    getOrNull response "instance_id" = .str (instanceIdFor server.instanceSerial) ∧
      getOrNull response "status" = .str (.text statusCompleted) := by
  unfold handleStartInstance at h
  dsimp only at h
  split at h
  · exact startInstanceOf_response h
  · split at h
    · exact startInstanceOf_response h
    · cases h

/-- What a handler returns, or the fault that stands for it. -/
theorem validResponse_completed {payload : Fields} {response : Json} {error : PyError}
    (h : getOrNull (match validResponse response with
      | some fields => fields
      | none => faultResponse payload error) "status" = .str (.text statusCompleted)) :
    ∃ fields, response = .obj fields ∧ validResponse response = some fields ∧
      getOrNull fields "status" = .str (.text statusCompleted) := by
  cases hvalid : validResponse response with
  | none =>
      rw [hvalid, getOrNull_faultResponse_status] at h
      exact absurd h (by decide)
  | some fields =>
      rw [hvalid] at h
      unfold validResponse at hvalid
      split at hvalid
      · split at hvalid
        · cases hvalid
          exact ⟨_, rfl, rfl, h⟩
        · cases hvalid
      · cases hvalid

/-- A response that is completed was not made of an error. -/
theorem terminalResponse_completed {cfg : Config δ ω ι} {payload : Fields}
    {result : Except PyError Json}
    (h : getOrNull (terminalResponse cfg payload result) "status" = .str (.text statusCompleted)) :
    ∃ fields, result = .ok (.obj fields) ∧
      terminalResponse cfg payload result = wrap cfg payload fields := by
  unfold terminalResponse at h ⊢
  dsimp only at h ⊢
  rw [getOrNull_wrap_status] at h
  rcases validResponse_completed h with ⟨fields, hfields, hvalid, hstatus⟩
  cases result with
  | ok response =>
      dsimp only at hfields hvalid ⊢
      exact ⟨fields, by rw [hfields], by rw [hvalid]⟩
  | error error =>
      exfalso
      cases error with
      | rejected rejection =>
          cases hfields
          have hrejected : getOrNull (rejectionFields rejection) "status" =
              .str (.text statusRejected) := rfl
          rw [hrejected] at hstatus
          revert hstatus
          decide
      | raised type message =>
          cases hfields
          rw [getOrNull_faultResponse_status] at hstatus
          revert hstatus
          decide

variable [DecidableEq δ] {cfg : Config δ ω ι} {server : Server δ ω ι}

/-- A request changes the instance of its own session at most, and only when it is
    executed. -/
theorem handleRequest_active (payload : Json) (sid : PyStr)
    (hother : ∀ request response, (handleRequest cfg server payload).2 =
      .executed request response →
      request.sessionId ≠ sid) :
    activeOf (handleRequest cfg server payload).1 sid = activeOf server sid := by
  unfold handleRequest at hother ⊢
  -- Only a request that is executed writes a session, and only its own.
  split
  · rename_i fields
    dsimp only at hother
    split
    · rfl
    · rename_i request hvalid
      rw [hvalid] at hother
      dsimp only at hother
      have hadmits := admit_active cfg server request
      generalize admitRequest cfg server request = admitted at hadmits hother ⊢
      rcases admitted with ⟨server₁, admission⟩
      rcases hadmits with ⟨-, -, hactive, -⟩
      dsimp only at hactive hother ⊢
      cases admission with
      | rejected rejection => exact congrFun hactive sid
      | raised error => exact congrFun hactive sid
      | replay response => exact congrFun hactive sid
      | execute ledger =>
          have hne := hother request _ rfl
          have hsessions := executeNewRequest_sessions cfg server₁ ledger request
          dsimp only
          rw [activeOf_set, Function.update_of_ne fun heq => hne heq.symm, ← hactive]
          unfold activeOf
          rw [hsessions]
  · rfl

/-- A start that is carried out: the session had no instance and has the new one,
    which the response names unless the request carries another id. -/
theorem executed_start {payload : Json} {request : Request} {response config : Fields}
    (hexecuted : (handleRequest cfg server payload).2 = .executed request response)
    (hbody : request.body = .startInstance config)
    (hcompleted : getOrNull response "status" = .str (.text statusCompleted)) :
    activeOf server request.sessionId = none ∧
    activeOf (handleRequest cfg server payload).1 request.sessionId =
      some (instanceIdFor server.instanceSerial) ∧
    getOrNull response "instance_id" =
      namedInResponse request.payload (instanceIdFor server.instanceSerial) := by
  unfold handleRequest at hexecuted ⊢
  split at hexecuted
  · rename_i fields
    split at hexecuted
    · cases hexecuted
    · rename_i request₁ hvalid
      rcases validateRequest_eq_ok fields request₁ hvalid with ⟨-, -, -, hpayload, -, -⟩
      have hadmits := admit_active cfg server request₁
      generalize admitRequest cfg server request₁ = admitted at hadmits hexecuted ⊢
      rcases admitted with ⟨server₁, admission⟩
      rcases hadmits with ⟨-, hserial, hactive, hledger⟩
      dsimp only at hserial hactive hledger hexecuted ⊢
      cases admission with
      | rejected rejection => cases hexecuted
      | raised error => cases hexecuted
      | replay response => cases hexecuted
      | execute ledger =>
          have howner := hledger ledger rfl
          dsimp only at hexecuted ⊢
          injection hexecuted with hrequest hresponse
          subst hrequest
          rw [activeOf_set, Function.update_self]
          rw [← hresponse] at hcompleted ⊢
          rcases terminalResponse_completed hcompleted with ⟨result, hresult, hwrapped⟩
          rw [hwrapped, getOrNull_wrap_instanceId]
          -- A session that has an instance gets a rejection.
          unfold executeNewRequest at hresult ⊢
          rw [hbody] at hresult ⊢
          dsimp only at hresult ⊢
          cases hnone : ledger.activeInstanceId with
          | some active =>
              rw [hnone] at hresult
              cases hresult
          | none =>
              rw [hnone] at hresult
              dsimp only at hresult ⊢
              rcases hstart : handleStartInstance cfg server₁ config with ⟨server₂, outcome⟩
              rw [hstart] at hresult
              cases outcome with
              | error error => cases hresult
              | ok started =>
                  cases hresult
                  rcases handleStartInstance_response hstart with ⟨hid, -⟩
                  dsimp only
                  rw [hid]
                  dsimp only
                  rw [instanceIdFor_not_isEmpty, ← hserial, ← howner, hnone]
                  unfold namedInResponse
                  rw [hpayload]
                  exact ⟨rfl, rfl, rfl⟩
  · cases hexecuted

/-- A replay changes nothing, and its response is that of the ledger. -/
theorem handleRequest_replayed {payload : Json} {request : Request} {response : Fields}
    (hvalid : validateRequest payload = .ok request)
    (hreplayed : (handleRequest cfg server payload).2 = .replayed response) :
    (handleRequest cfg server payload).1 = server ∧
    (Json.obj request.payload).encodable = true ∧
    ∃ ledger, server.sessions.get? request.sessionId = some ledger ∧
      request.requestSeq = ledger.lastSeq ∧
      ledger.lastDigest = some (cfg.hash (Json.obj request.payload).sortKeys) ∧
      ledger.lastResponse = some response := by
  cases payload with
  | obj fields =>
      have hspec := admit_spec cfg server request
      unfold handleRequest at hreplayed ⊢
      dsimp only at hreplayed ⊢
      rw [hvalid] at hreplayed ⊢
      dsimp only at hreplayed ⊢
      rcases hadmits : admitRequest cfg server request with ⟨server₁, admission⟩
      rw [hadmits] at hspec hreplayed
      -- Of the four admissions only a replay is answered with what is stored.
      cases admission with
      | rejected rejection => cases hreplayed
      | raised error => cases hreplayed
      | execute ledger => cases hreplayed
      | replay stored =>
          injection hreplayed with hstored
          subst hstored
          refine ⟨hspec, ?_⟩
          -- It was found in the ledger of the session, under the last number and digest.
          unfold admitRequest at hadmits
          cases hsession : getOrCreateSession cfg server request.sessionId request.requestSeq with
          | error rejection =>
              rw [hsession] at hadmits
              cases hadmits
          | ok found =>
              rcases found with ⟨server₂, ledger⟩
              rw [hsession] at hadmits
              dsimp only at hadmits
              unfold payloadDigest at hadmits
              by_cases henc : (Json.obj request.payload).encodable = true
              · rw [if_pos henc] at hadmits
                dsimp only at hadmits
                cases hbegin : ledger.begin request.requestSeq
                    (cfg.hash (Json.obj request.payload).sortKeys) with
                | error rejection =>
                    rw [hbegin] at hadmits
                    cases hadmits
                | ok begun =>
                    rw [hbegin] at hadmits
                    cases begun with
                    | fresh opened => cases hadmits
                    | replay response =>
                        cases hadmits
                        rcases (SessionLedger.begin_eq_ok_replay _ _ _ _).mp hbegin with
                          ⟨hseq, hdigest, hresponse⟩
                        rcases getOrCreateSession_eq_ok _ _ _ _ _ _ hsession with
                          -- A new ledger has stored nothing.
                          ⟨-, hget⟩ | ⟨-, -, hnew, -⟩
                        · exact ⟨henc, ledger, hget, hseq, hdigest, hresponse⟩
                        · rw [hnew] at hresponse
                          cases hresponse
              · rw [if_neg henc] at hadmits
                cases hadmits
  | _ => exact absurd hvalid (throw_ne_ok _ _)

end Executed

/-!
### Runs

Every answer a session keeps names the instance it started.
-/

section Runs

variable [DecidableEq δ] {cfg : Config δ ω ι}

/-- What the ledgers remember of a start that was the last request of its session:
    the session still has the instance, and the response named it then. -/
def AnswersKept (server : Server δ ω ι) (log : List Outcome) : Prop :=
  ∀ sid last config, (executedIn sid log).getLast? = some last →
    last.1.body = .startInstance config →
    getOrNull last.2 "status" = .str (.text statusCompleted) →
    ∃ active, activeOf server sid = some active ∧
      getOrNull last.2 "instance_id" = namedInResponse last.1.payload active

/-- One request keeps what the ledgers remember. -/
theorem answersKept_step {server : Server δ ω ι} {log : List Outcome}
    (h : AnswersKept server log) (payload : Json) :
    AnswersKept (handleRequest cfg server payload).1
      (log ++ [(handleRequest cfg server payload).2]) := by
  intro sid last config hlast hbody hcompleted
  rw [executedIn_append] at hlast
  by_cases hown : ∃ request response,
      (handleRequest cfg server payload).2 = .executed request response ∧ request.sessionId = sid
  · rcases hown with ⟨request, response, hexecuted, rfl⟩
    rw [hexecuted] at hlast
    simp only [executedIn, if_true, List.getLast?_concat, Option.some.injEq] at hlast
    subst hlast
    rcases executed_start hexecuted hbody hcompleted with ⟨-, hactive, hnamed⟩
    exact ⟨_, hactive, hnamed⟩
  · have hother : ∀ request response,
        (handleRequest cfg server payload).2 = .executed request response →
          request.sessionId ≠ sid :=
      fun request response hexecuted hsid => hown ⟨request, response, hexecuted, hsid⟩
    have hnothing : executedIn sid [(handleRequest cfg server payload).2] = [] := by
      cases hout : (handleRequest cfg server payload).2 with
      | executed request response =>
          simp only [executedIn, if_neg (hother request response hout)]
      | _ => rfl
    rw [hnothing, List.append_nil] at hlast
    rw [handleRequest_active payload sid hother]
    exact h sid last config hlast hbody hcompleted

theorem answersKept_run (world : ω) (payloads : List Json) :
    AnswersKept (Run.final (handleRequest cfg) (Server.init world) payloads)
      (Run.outputs (handleRequest cfg) (Server.init world) payloads) := by
  induction payloads using List.reverseRecOn with
  | nil =>
      intro sid last config hlast
      cases hlast
  | append_singleton payloads payload ih =>
      rw [Run.final_concat, Run.outputs_concat]
      exact answersKept_step ih payload

/-- Only a start has the body of a start. -/
theorem validateBody_start_iff {payload : Fields} {operation : Operation} {body : Body}
    (h : validateBody payload operation = .ok body) :
    (∃ config, body = .startInstance config) ↔ operation = .startInstance := by
  have h' := (toOption_eq_some _ _).mpr h
  unfold validateBody at h'
  rw [toOption_bind, Option.bind_eq_some_iff] at h'
  rcases h' with ⟨instanceId, -, hcall⟩
  cases operation <;>
    simp only [requireCall, toOption_bind, toOption_pure, Option.bind_eq_some_iff,
      Option.some.injEq] at hcall <;>
    grind

/-- Two accepted payloads of the same content start an instance alike, and carry the
    same instance id. -/
theorem start_sameContent {fields fields' : Fields} {request request' : Request}
    (hsame : (Json.obj fields).SameContent (.obj fields'))
    (hvalid : validateRequest (.obj fields) = .ok request)
    (hvalid' : validateRequest (.obj fields') = .ok request') {config : Fields}
    (hbody : request.body = .startInstance config) :
    (∃ config', request'.body = .startInstance config') ∧
    ∀ instanceId, namedInResponse fields' instanceId = .str instanceId ↔
      namedInResponse fields instanceId = .str instanceId := by
  have hsort : Json.sortKeysFields fields = Json.sortKeysFields fields' := Json.obj.inj hsame
  rcases validateRequest_eq_ok fields request hvalid with ⟨header, hheader, hb, -, -, -⟩
  rcases validateRequest_eq_ok fields' request' hvalid' with ⟨header', hheader', hb', -, -, -⟩
  have hheaders : header' = header := by
    have hop := validateHeader_sortKeys fields
    rw [hsort, validateHeader_sortKeys, hheader, hheader'] at hop
    exact Option.some.inj hop
  refine ⟨?_, fun instanceId => ?_⟩
  · rw [validateBody_start_iff hb', hheaders]
    exact (validateBody_start_iff hb).mp ⟨config, hbody⟩
  · have hlookup : (Dict.lookupL (PyStr.text "instance_id") fields').map Json.sortKeys =
        (Dict.lookupL (PyStr.text "instance_id") fields).map Json.sortKeys := by
      rw [← Json.lookup_sortKeysFields, ← Json.lookup_sortKeysFields, hsort]
    have hid : (getOrNull fields' "instance_id").sortKeys =
        (getOrNull fields "instance_id").sortKeys := by
      unfold getOrNull
      cases hget : Dict.lookupL (PyStr.text "instance_id") fields with
      | none =>
          rw [hget, Option.map_none, Option.map_eq_none_iff] at hlookup
          rw [hlookup]
      | some value =>
          rw [hget, Option.map_some] at hlookup
          rcases Option.map_eq_some_iff.mp hlookup with ⟨value', hvalue', heq⟩
          rw [hvalue']
          exact heq
    -- Sorting the members of a value tells texts and nothing from the rest.
    have hleaf : ∀ a b : Json, a.sortKeys = b.sortKeys → ((a = .null ∨ a = .str instanceId) ↔
        (b = .null ∨ b = .str instanceId)) := by
      intro a b hab
      cases a <;> cases b <;> simp_all [Json.sortKeys]
    rw [namedInResponse_eq_iff, namedInResponse_eq_iff]
    exact hleaf _ _ hid

/-- In every run: the response to a start that is accepted and completed, or to a
    resend of it, names the instance of the session exactly when the request carries
    no other instance id. -/
theorem start_response_named_iff (cfg : Config δ ω ι) (hinj : DigestInjective cfg.hash)
    (world : ω) (payloads : List Json) (payload : Json) (request : Request)
    (config response : Fields) (hvalid : validateRequest payload = .ok request)
    (hbody : request.body = .startInstance config)
    (hanswer : (handleRequest cfg
        (Run.final (handleRequest cfg) (Server.init world) payloads) payload).2 =
          .executed request response ∨
      (handleRequest cfg
        (Run.final (handleRequest cfg) (Server.init world) payloads) payload).2 =
          .replayed response)
    (hcompleted : getOrNull response "status" = .str (.text statusCompleted)) :
    NamesStarted (handleRequest cfg
        (Run.final (handleRequest cfg) (Server.init world) payloads) payload).1
      request.sessionId response ↔
    getOrNull request.payload "instance_id" = .null ∨
      getOrNull request.payload "instance_id" = .str (idToStart
        (Run.final (handleRequest cfg) (Server.init world) payloads) request.sessionId) := by
  have hkept : AnswersKept (Run.final (handleRequest cfg) (Server.init world) payloads)
      (Run.outputs (handleRequest cfg) (Server.init world) payloads) :=
    answersKept_run world payloads
  have hrecorded := recorded_run cfg world payloads request.sessionId
  have hownership := ownership_final cfg world payloads
  generalize Run.final (handleRequest cfg) (Server.init world) payloads = server at *
  have hafter : Ownership (handleRequest cfg server payload).1 :=
    ownership_step hownership payload
  rw [← namedInResponse_eq_iff]
  -- The instance of the session is in the table, so only the id in the response is open.
  have hnames : ∀ active, activeOf (handleRequest cfg server payload).1 request.sessionId =
      some active → (NamesStarted (handleRequest cfg server payload).1 request.sessionId response ↔
        getOrNull response "instance_id" = .str active) := by
    intro active hactive
    constructor
    · rintro ⟨instanceId, hsame, hid, -⟩
      rw [hactive] at hsame
      cases hsame
      exact hid
    · exact fun hid => ⟨active, hactive, hid, (hafter.owns.exact active).mp ⟨_, hactive⟩⟩
  rcases hanswer with hexecuted | hreplayed
  · rcases executed_start hexecuted hbody hcompleted with ⟨hnone, hactive, hnamed⟩
    rw [hnames _ hactive, hnamed]
    unfold idToStart
    rw [hnone, Option.getD_none]
  · rcases handleRequest_replayed hvalid hreplayed with
      ⟨hsame, henc, ledger, hledger, hseq, hdigest, hresponse⟩
    rw [hledger] at hrecorded
    -- The ledger holds the response to the last request, which had the same content.
    have hsome : ∃ last, (executedIn request.sessionId
        (Run.outputs (handleRequest cfg) (Server.init world) payloads)).getLast? = some last := by
      rw [← Option.isSome_iff_exists, List.getLast?_isSome]
      intro hempty
      have hlength := congrArg List.length hrecorded.seqs
      rw [hempty, List.length_map, List.length_range', Option.map_some, Option.getD_some] at hlength
      have hpos := request.seq_pos
      rw [hseq, ← hlength] at hpos
      exact absurd hpos (Nat.lt_irrefl 0)
    rcases hsome with ⟨last, hlast⟩
    rcases hrecorded.last last hlast with ⟨ledger', hledger', hdigest', hresponse', henc'⟩
    cases hledger'
    rw [hresponse] at hresponse'
    cases hresponse'
    have hcontent : (Json.obj request.payload).SameContent (.obj last.1.payload) := by
      refine hinj _ _ henc henc' ?_
      unfold payloadDigest
      rw [if_pos henc, if_pos henc']
      rw [hdigest] at hdigest'
      exact congrArg Except.ok (Option.some.inj hdigest')
    have hvalidLast := hrecorded.valid last (List.mem_of_getLast? hlast)
    have hvalidRequest : validateRequest (.obj request.payload) = .ok request := by
      cases payload with
      | obj fields =>
          rcases validateRequest_eq_ok fields request hvalid with ⟨-, -, -, hpayload, -, -⟩
          rwa [hpayload]
      | _ => exact absurd hvalid (throw_ne_ok _ _)
    rcases start_sameContent hcontent hvalidRequest hvalidLast hbody with
      ⟨⟨config', hbody'⟩, hnamed⟩
    rcases hkept request.sessionId last config' hlast hbody' hcompleted with
      ⟨active, hactive, hid⟩
    rw [hsame] at hnames ⊢
    rw [hnames active hactive, hid, hnamed active]
    unfold idToStart
    rw [hactive, Option.getD_some]

end Runs

section StartNaming

/-- A start that carries an instance id. -/
def startNaming : Json :=
  .obj [(.text "schema_version", .str (.text schemaVersion)),
    (.text "client_session_id", .str (.text "a")),
    (.text "request_seq", .int 1),
    (.text "request_id", .str (requestIdFor (.text "a") 1)),
    (.text "operation", .str (.text "start_instance")),
    (.text "instance_config", .obj [(.text "instance_type", .str (.text "combat"))]),
    (.text "instance_id", .str (.text "mine"))]

/-- The response names an instance that does not exist. -/
theorem start_misnamed : ∃ request config response,
    validateRequest startNaming = .ok request ∧ request.body = .startInstance config ∧
    (handleRequest transparentConfig (Run.final (handleRequest transparentConfig)
      (Server.init ()) []) startNaming).2 = .executed request response ∧
    getOrNull response "status" = .str (.text statusCompleted) ∧
    ¬ NamesStarted (handleRequest transparentConfig (Run.final (handleRequest transparentConfig)
      (Server.init ()) []) startNaming).1 request.sessionId response := by
  refine ⟨_, _, _, rfl, rfl, rfl, rfl, ?_⟩
  rintro ⟨instanceId, hactive, hid, -⟩
  have hmine : instanceId = .text "mine" := (Json.str.inj hid).symm
  rw [hmine] at hactive
  revert hactive
  decide +kernel

theorem start_response_named_small : ∃ request config response,
    validateRequest (startRequest "a" 1) = .ok request ∧ request.body = .startInstance config ∧
    (NamesStarted (handleRequest transparentConfig (Run.final (handleRequest transparentConfig)
        (Server.init ()) []) (startRequest "a" 1)).1 request.sessionId response ↔
      getOrNull request.payload "instance_id" = .null ∨
        getOrNull request.payload "instance_id" = .str (idToStart (Run.final
          (handleRequest transparentConfig) (Server.init ()) []) request.sessionId)) :=
  ⟨_, _, _, rfl, rfl, start_response_named_iff transparentConfig digestInjective_id () []
    (startRequest "a" 1) _ _ _ rfl rfl (.inl rfl) rfl⟩

end StartNaming

end Api

end STS2RL
