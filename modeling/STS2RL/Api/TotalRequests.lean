import STS2RL.Api.AtMostOnce

/-!
# Requests that are Answered

Handling a request is meant to be total: it returns a response, and a payload that
is not admitted leaves the sessions alone.

Every exception of an operation is made into a response, and so is every
rejection. What is left is the digest of the payload. It is taken after the
session was found or made, and a text that JSON can hold and UTF-8 cannot raises
there: the exception leaves the server, and the session that was made stays.

## Main definitions

* `Answered`: What handling a request promises.
* `Undigested`: A payload that is let in to a session and has no digest.
* `loneSurrogateStart`: A start with a lone surrogate.

## Theorems

* `handleRequest_undigested`: Such a payload gets no response.
* `handleRequest_answered`: Every other payload does.
* `handle_request_total_iff`: The law.
-/

namespace STS2RL

namespace Api

open STS2RL.Except

variable {δ ω ι : Type} [DecidableEq δ] {cfg : Config δ ω ι} {server : Server δ ω ι}
  {fields : Fields}

/-- The request gets a response, and unless it is executed the sessions are what
    they were. -/
def Answered (cfg : Config δ ω ι) (server : Server δ ω ι) (payload : Json) : Prop :=
  (∃ response, (handleRequest cfg server payload).2.response? = some response) ∧
  ((∀ request response, (handleRequest cfg server payload).2 ≠ .executed request response) →
    (handleRequest cfg server payload).1.sessions = server.sessions)

/-- A payload that is valid and that a session is found or made for, but that cannot
    be encoded. -/
def Undigested (cfg : Config δ ω ι) (server : Server δ ω ι) (fields : Fields) : Prop :=
  (Json.obj fields).encodable = false ∧
  ∃ request found, validateRequest (.obj fields) = .ok request ∧
    getOrCreateSession cfg server request.sessionId request.requestSeq = .ok found

theorem handleRequest_undigested (h : Undigested cfg server fields) :
    (handleRequest cfg server (.obj fields)).2.response? = none := by
  rcases h with ⟨henc, request, found, hvalid, hsession⟩
  rcases validateRequest_eq_ok fields request hvalid with ⟨-, -, -, hpayload, -, -⟩
  have hdigest : payloadDigest cfg.hash (.obj request.payload) =
      .error (.raised "UnicodeEncodeError" "surrogates not allowed") := by
    rw [hpayload]
    unfold payloadDigest
    rw [henc]
    rfl
  unfold handleRequest admitRequest
  dsimp only
  rw [hvalid]
  dsimp only
  rw [hsession]
  dsimp only
  rw [hdigest]
  rfl

/-- A payload that is digested, or rejected before, gets a response. -/
theorem handleRequest_answered (h : ¬ Undigested cfg server fields) :
    Answered cfg server (.obj fields) := by
  unfold Answered handleRequest
  dsimp only
  cases hvalid : validateRequest (.obj fields) with
  | error rejection => exact ⟨⟨_, rfl⟩, fun _ => rfl⟩
  | ok request =>
      have hspec := admit_spec cfg server request
      dsimp only
      rcases hadmits : admitRequest cfg server request with ⟨server', admission⟩
      rw [hadmits] at hspec
      cases admission with
      | rejected rejection =>
          exact ⟨⟨_, rfl⟩, fun _ => by rw [show server' = server from hspec]⟩
      | replay response =>
          exact ⟨⟨_, rfl⟩, fun _ => by rw [show server' = server from hspec]⟩
      | execute ledger => exact ⟨⟨_, rfl⟩, fun hnot => absurd rfl (hnot request _)⟩
      | raised error =>
          -- Only the digest raises, and it raises what `Undigested` names.
          exfalso
          apply h
          rcases validateRequest_eq_ok fields request hvalid with ⟨-, -, -, hpayload, -, -⟩
          unfold admitRequest at hadmits
          cases hsession : getOrCreateSession cfg server request.sessionId request.requestSeq with
          | error rejection =>
              rw [hsession] at hadmits
              cases hadmits
          | ok found =>
              refine ⟨?_, request, found, hvalid, hsession⟩
              by_contra hencodable
              have henc : (Json.obj request.payload).encodable = true := by
                rw [hpayload]
                simpa using hencodable
              rw [hsession] at hadmits
              dsimp only at hadmits
              unfold payloadDigest at hadmits
              rw [if_pos henc] at hadmits
              dsimp only at hadmits
              split at hadmits <;> cases hadmits

/-- Handling a payload returns a response and leaves the sessions alone unless the
    request is executed, exactly when the payload can be encoded or is rejected
    before it is digested. -/
theorem handle_request_total_iff (cfg : Config δ ω ι) (server : Server δ ω ι) (fields : Fields) :
    Answered cfg server (.obj fields) ↔ ¬ Undigested cfg server fields := by
  refine ⟨fun hanswered hundigested => ?_, handleRequest_answered⟩
  rcases hanswered.1 with ⟨response, hresponse⟩
  rw [handleRequest_undigested hundigested] at hresponse
  cases hresponse

section LoneSurrogate

/-- A start with a lone surrogate in a member that no operation reads. -/
def loneSurrogateStart : Fields :=
  [(.text "schema_version", .str (.text schemaVersion)),
    (.text "client_session_id", .str (.text "a")),
    (.text "request_seq", .int 1),
    (.text "request_id", .str (requestIdFor (.text "a") 1)),
    (.text "operation", .str (.text "start_instance")),
    (.text "instance_config", .obj [(.text "instance_type", .str (.text "combat"))]),
    (.text "note", .str (.lone "" 0 (.text "")))]

/-- There is no response, and a session more than before. -/
theorem lone_surrogate_raises :
    (handleRequest transparentConfig (Server.init ()) (.obj loneSurrogateStart)).2.response? =
        none ∧
      (handleRequest transparentConfig (Server.init ())
        (.obj loneSurrogateStart)).1.sessions.size = 1 ∧
      (Server.init () : Server Json Unit Unit).sessions.size = 0 ∧
      ¬ Answered transparentConfig (Server.init ()) (.obj loneSurrogateStart) := by
  have hnone : (handleRequest transparentConfig (Server.init ())
      (.obj loneSurrogateStart)).2.response? = none := rfl
  refine ⟨hnone, rfl, rfl, ?_⟩
  rintro ⟨⟨response, hresponse⟩, -⟩
  rw [hnone] at hresponse
  cases hresponse

end LoneSurrogate

end Api

end STS2RL
