import Mathlib.Data.List.Range
import STS2RL.Api.Server
import STS2RL.Core.Run

/-!
# At Most Once

What a client session can rely on, whatever the other sessions send: its
requests are executed in the order of their numbers, each once, and a resend is
answered without executing anything.

The ledger forgets all but the last request, so the law is about a ledger and
the history it stands for. `Recorded` is that relation, between a session's
ledger and the requests executed for it so far; one request keeps it
(`recorded_step`), hence a run does (`recorded_run`), and everything a session
is promised is read off it.

An executing request can raise, reject, or return nonsense. None of this shows
here: `handleRequest_cases` says that whatever an operation does, the ledger
ends up with the request's number, its digest and a terminal response.

## Main definitions

* `executedIn`: The requests executed for a session, with their responses.
* `Recorded`: A ledger agrees with the history of its session.
* `Refused`: The four ways a session refuses a request.
* `SessionsAtMostOnce`: The promise of the server to its sessions.

## Theorems

* `admit_spec`: What an admission changes, by its kind.
* `handleRequest_cases`: What a request changes of the sessions.
* `recorded_run`: Every ledger agrees with its history after every run.
* `session_at_most_once`: Every run keeps the promise.
-/

namespace STS2RL

namespace Api

open STS2RL.Except

variable {δ ω ι : Type} [DecidableEq δ]

/-- The requests executed for a session, oldest first, with their responses. -/
def executedIn (sessionId : PyStr) : List Outcome → List (Request × Fields)
  | [] => []
  | .executed request response :: rest =>
      if request.sessionId = sessionId then (request, response) :: executedIn sessionId rest
      else executedIn sessionId rest
  | _ :: rest => executedIn sessionId rest

/-- A ledger agrees with the requests executed for its session: they carry the
    numbers from one on, and the ledger holds the digest and the response of
    the last. -/
structure Recorded (cfg : Config δ ω ι) (ledger? : Option (SessionLedger δ))
    (done : List (Request × Fields)) : Prop where
  seqs : done.map (fun e => e.1.requestSeq) =
    List.range' 1 ((ledger?.map SessionLedger.lastSeq).getD 0)
  valid : ∀ e ∈ done, validateRequest (.obj e.1.payload) = .ok e.1
  last : ∀ e, done.getLast? = some e → ∃ ledger, ledger? = some ledger ∧
    ledger.lastDigest = some (cfg.hash (Json.obj e.1.payload).sortKeys) ∧
    ledger.lastResponse = some e.2 ∧ (Json.obj e.1.payload).encodable = true

omit [DecidableEq δ] in
theorem executedIn_append (sessionId : PyStr) (xs ys : List Outcome) :
    executedIn sessionId (xs ++ ys) = executedIn sessionId xs ++ executedIn sessionId ys := by
  induction xs with
  | nil => rfl
  | cons x xs ih =>
      cases x with
      | executed request response =>
          simp only [List.cons_append, executedIn, ih]
          split <;> rfl
      | _ => exact ih

omit [DecidableEq δ] in
/-- The session a request is addressed to: an existing one, or a new one if it
    is its first request and there is room. -/
theorem getOrCreateSession_eq_ok (cfg : Config δ ω ι) (server server' : Server δ ω ι)
    (sessionId : PyStr) (seq : Nat) (ledger : SessionLedger δ)
    (h : getOrCreateSession cfg server sessionId seq = .ok (server', ledger)) :
    (server' = server ∧ server.sessions.get? sessionId = some ledger) ∨
      (server.sessions.get? sessionId = none ∧ seq = 1 ∧ ledger = SessionLedger.new ∧
        server' = { server with
          sessions := server.sessions.set sessionId SessionLedger.new }) := by
  unfold getOrCreateSession at h
  cases hget : server.sessions.get? sessionId with
  | some existing =>
      simp only [hget, pure_eq_ok, Prod.mk.injEq] at h
      exact Or.inl ⟨h.1.symm, by rw [h.2]⟩
  | none =>
      simp only [hget] at h
      by_cases hseq : seq = 1
      · rw [if_neg (not_not_intro hseq)] at h
        by_cases hcap : cfg.maxSessions ≤ server.sessions.size
        · rw [if_pos hcap] at h
          exact absurd h (throw_ne_ok _ _)
        · rw [if_neg hcap] at h
          simp only [pure_eq_ok, Prod.mk.injEq] at h
          exact Or.inr ⟨rfl, hseq, h.2.symm, h.1.symm⟩
      · rw [if_pos hseq] at h
        exact absurd h (throw_ne_ok _ _)

/-- What an admission changes: a refusal or a replay nothing, an encoder's
    exception at most that a new session is there, and an opened request its
    own ledger. -/
theorem admit_spec (cfg : Config δ ω ι) (server : Server δ ω ι) (request : Request) :
    match admitRequest cfg server request with
    | (server', .rejected _) => server' = server
    | (server', .raised _) => server' = server ∨
        (server.sessions.get? request.sessionId = none ∧ server' = { server with
          sessions := server.sessions.set request.sessionId SessionLedger.new })
    | (server', .replay _) => server' = server
    | (server', .execute ledger) =>
        request.requestSeq = server.lastSeq request.sessionId + 1 ∧
        (Json.obj request.payload).encodable = true ∧ ledger.lastSeq = request.requestSeq ∧
        ledger.lastDigest = some (cfg.hash (Json.obj request.payload).sortKeys) ∧
        ∀ sid, server'.sessions.get? sid =
          if sid = request.sessionId then some ledger else server.sessions.get? sid := by
  unfold admitRequest
  -- The session is found or made, the payload is digested, and the ledger says what the number
  -- means.
  cases hsession : getOrCreateSession cfg server request.sessionId request.requestSeq with
  | error rejection => rfl
  | ok found =>
      rcases found with ⟨server₁, ledger⟩
      have hfound := getOrCreateSession_eq_ok cfg server server₁ _ _ ledger hsession
      by_cases henc : (Json.obj request.payload).encodable = true
      · have hdig : payloadDigest cfg.hash (Json.obj request.payload) =
            .ok (cfg.hash (Json.obj request.payload).sortKeys) := if_pos henc
        simp only [hdig]
        cases hbegin : ledger.begin request.requestSeq
            (cfg.hash (Json.obj request.payload).sortKeys) with
        | error rejection =>
            -- A ledger can refuse the number only of a session that was there.
            rcases hfound with ⟨rfl, _⟩ | ⟨_, hseq, hnew, _⟩
            · rfl
            · -- A new ledger expects the number the new session was let in with.
              have hopen := (SessionLedger.begin_eq_ok_fresh ledger _ request.requestSeq
                (cfg.hash (Json.obj request.payload).sortKeys)).mpr
                ⟨by rw [hnew, hseq]; rfl, rfl⟩
              rw [hbegin] at hopen
              cases hopen
        | ok begun =>
            cases begun with
            | replay response =>
                -- A response is kept only by a ledger that has answered something, hence by an
                -- old one.
                have hrep := (SessionLedger.begin_eq_ok_replay ledger _ _ response).mp hbegin
                rcases hfound with ⟨rfl, _⟩ | ⟨_, hseq, hnew, _⟩
                · rfl
                · rw [hnew, hseq] at hrep
                  exact absurd hrep.1 (by simp [SessionLedger.new])
            | fresh opened =>
                have hfresh := (SessionLedger.begin_eq_ok_fresh ledger opened _ _).mp hbegin
                -- The number is the next one, of a session that was there or of a new one.
                refine ⟨?_, henc, by rw [hfresh.2], by rw [hfresh.2], ?_⟩
                · rcases hfound with ⟨rfl, hget⟩ | ⟨hget, _, hnew, _⟩
                  · rw [hfresh.1, Server.lastSeq, hget]
                    rfl
                  · rw [hfresh.1, Server.lastSeq, hget, hnew]
                    rfl
                · intro sid
                  rw [Dict.get?_set]
                  rcases hfound with ⟨rfl, _⟩ | ⟨_, _, _, rfl⟩
                  · rfl
                  · by_cases hsid : sid = request.sessionId
                    · rw [if_pos hsid, if_pos hsid]
                    · rw [if_neg hsid, if_neg hsid, Dict.get?_set_ne _ _ hsid]
      -- A payload without a text in UTF-8 raises before the ledger is asked; a new session
      -- stays.
      · have hdig : ∃ error, payloadDigest cfg.hash (Json.obj request.payload) = .error error :=
          ⟨_, if_neg henc⟩
        rcases hdig with ⟨error, hdig⟩
        simp only [hdig]
        rcases hfound with ⟨rfl, _⟩ | ⟨hnone, _, _, rfl⟩
        · exact Or.inl rfl
        · exact Or.inr ⟨hnone, rfl⟩

/-- What an executed request leaves of the sessions: its own ledger with its
    number, its digest and the response it was answered with. -/
structure Opened (cfg : Config δ ω ι) (before after : Server δ ω ι) (payload : Json)
    (request : Request) (response : Fields) : Prop where
  valid : validateRequest payload = .ok request
  payload_eq : payload = .obj request.payload
  encodable : payload.encodable = true
  next : request.requestSeq = before.lastSeq request.sessionId + 1
  ledger : ∃ ledger : SessionLedger δ, ledger.lastSeq = request.requestSeq ∧
    ledger.lastDigest = some (cfg.hash payload.sortKeys) ∧
    ledger.lastResponse = some response ∧
    ∀ sid, after.sessions.get? sid =
      if sid = request.sessionId then some ledger else before.sessions.get? sid

/-- One request either executes and leaves its own ledger closed, or executes
    nothing and adds at most an unused session. -/
theorem handleRequest_cases (cfg : Config δ ω ι) (server : Server δ ω ι) (payload : Json) :
    (∃ request response, (handleRequest cfg server payload).2 = .executed request response ∧
      Opened cfg server (handleRequest cfg server payload).1 payload request response) ∨
    ((∀ request response, (handleRequest cfg server payload).2 ≠ .executed request response) ∧
      ∀ sid, (handleRequest cfg server payload).1.sessions.get? sid =
          server.sessions.get? sid ∨
        (server.sessions.get? sid = none ∧
          (handleRequest cfg server payload).1.sessions.get? sid =
            some SessionLedger.new)) := by
  cases payload with
  | obj fields =>
      cases hvalid : validateRequest (.obj fields) with
      -- A payload that is not valid changes nothing.
      | error rejection =>
          refine Or.inr ⟨?_, ?_⟩
          · intro request response hc
            simp [handleRequest, hvalid] at hc
          · intro sid
            simp [handleRequest, hvalid]
      | ok request =>
          -- A valid one is admitted first, and only an admission to execute writes a ledger.
          rcases validateRequest_eq_ok fields request hvalid with ⟨_, _, _, hpayload, _, _⟩
          have hspec := admit_spec cfg server request
          rcases hadmits : admitRequest cfg server request with ⟨server', admission⟩
          rw [hadmits] at hspec
          cases admission with
          | rejected rejection =>
              refine Or.inr ⟨?_, ?_⟩
              · intro request' response hc
                simp [handleRequest, hvalid, hadmits] at hc
              · intro sid
                simp only [handleRequest, hvalid, hadmits]
                exact Or.inl (by rw [show server' = server from hspec])
          | raised error =>
              refine Or.inr ⟨?_, ?_⟩
              · intro request' response hc
                simp [handleRequest, hvalid, hadmits] at hc
              · intro sid
                simp only [handleRequest, hvalid, hadmits]
                rcases hspec with rfl | ⟨hnone, rfl⟩
                · exact Or.inl rfl
                -- A session that raised was made and has answered nothing.
                · by_cases hsid : sid = request.sessionId
                  · exact Or.inr ⟨by rw [hsid]; exact hnone, by rw [hsid, Dict.get?_set_self]⟩
                  · exact Or.inl (Dict.get?_set_ne _ _ hsid)
          | replay response =>
              refine Or.inr ⟨?_, ?_⟩
              · intro request' response' hc
                simp [handleRequest, hvalid, hadmits] at hc
              · intro sid
                simp only [handleRequest, hvalid, hadmits]
                exact Or.inl (by rw [show server' = server from hspec])
          | execute ledger =>
              rcases hspec with ⟨hnext, henc, hseq, hdig, hget⟩
              rw [hpayload] at henc hdig
              refine Or.inl ⟨request, terminalResponse cfg fields
                (executeNewRequest cfg server' ledger request).2.2, ?_, ?_⟩
              · simp only [handleRequest, hvalid, hadmits]
              -- The response is stored in the ledger of the session, and no other session is
              -- written.
              · rcases executeNewRequest_ledger cfg server' ledger request with ⟨active, hled⟩
                refine ⟨hvalid, by rw [hpayload], henc, hnext,
                  (executeNewRequest cfg server' ledger request).2.1.complete _,
                  ?_, ?_, rfl, ?_⟩
                · rw [SessionLedger.complete, hled]
                  exact hseq
                · rw [SessionLedger.complete, hled]
                  exact hdig
                · intro sid
                  simp only [handleRequest, hvalid, hadmits, executeNewRequest_sessions]
                  rw [Dict.get?_set, hget]
                  by_cases hsid : sid = request.sessionId
                  · rw [if_pos hsid, if_pos hsid]
                  · rw [if_neg hsid, if_neg hsid, if_neg hsid]
  -- A payload that is no object is refused.
  | _ =>
      refine Or.inr ⟨?_, fun sid => Or.inl rfl⟩
      intro request response hc
      cases hc

omit [DecidableEq δ] in
/-- An unused session has executed nothing, whether or not it is there yet. -/
theorem recorded_unused (cfg : Config δ ω ι) (done : List (Request × Fields))
    (h : Recorded cfg none done) : Recorded cfg (some SessionLedger.new) done := by
  refine ⟨h.seqs, h.valid, ?_⟩
  intro e he
  rcases h.last e he with ⟨ledger, hnone, _⟩
  cases hnone

omit [DecidableEq δ] in
/-- A closed request extends the history of its session by itself. -/
theorem recorded_opened (cfg : Config δ ω ι) (server after : Server δ ω ι) (payload : Json)
    (request : Request) (response : Fields) (done : List (Request × Fields))
    (h : Recorded cfg (server.sessions.get? request.sessionId) done)
    (hopen : Opened cfg server after payload request response) :
    Recorded cfg (after.sessions.get? request.sessionId) (done ++ [(request, response)]) := by
  rcases hopen.ledger with ⟨ledger, hseq, hdig, hresp, hget⟩
  have hledger : after.sessions.get? request.sessionId = some ledger := by
    rw [hget, if_pos rfl]
  have hlast : ((server.sessions.get? request.sessionId).map SessionLedger.lastSeq).getD 0 + 1 =
      ledger.lastSeq := by
    rw [hseq, hopen.next]
    rfl
  refine ⟨?_, ?_, ?_⟩
  · rw [List.map_append, h.seqs, hledger, Option.map_some, Option.getD_some, ← hlast,
      List.map_cons, List.map_nil, ← hseq, ← hlast, List.range'_1_concat, Nat.add_comm 1]
  · intro e he
    rcases List.mem_append.mp he with hold | hnew
    · exact h.valid e hold
    · rw [List.mem_singleton.mp hnew, ← hopen.payload_eq]
      exact hopen.valid
  · intro e he
    rw [List.getLast?_concat, Option.some.injEq] at he
    rw [← he]
    have henc := hopen.encodable
    rw [hopen.payload_eq] at hdig henc
    exact ⟨ledger, hledger, hdig, hresp, henc⟩

/-- One request keeps every ledger in agreement with its history. -/
theorem recorded_step (cfg : Config δ ω ι) (server : Server δ ω ι) (log : List Outcome)
    (payload : Json)
    (h : ∀ sid, Recorded cfg (server.sessions.get? sid) (executedIn sid log)) (sid : PyStr) :
    Recorded cfg ((handleRequest cfg server payload).1.sessions.get? sid)
      (executedIn sid (log ++ [(handleRequest cfg server payload).2])) := by
  rw [executedIn_append]
  rcases handleRequest_cases cfg server payload with ⟨request, response, hout, hopen⟩ |
    ⟨hnone, hsame⟩
  · rw [hout]
    by_cases hsid : request.sessionId = sid
    · subst hsid
      simp only [executedIn, if_true]
      exact recorded_opened cfg server _ payload request response _ (h _) hopen
    · rcases hopen.ledger with ⟨ledger, _, _, _, hget⟩
      simp only [executedIn, if_neg hsid, List.append_nil]
      rw [hget, if_neg (fun hc => hsid hc.symm)]
      exact h sid
  · have hlog : executedIn sid [(handleRequest cfg server payload).2] = [] := by
      cases hout : (handleRequest cfg server payload).2 with
      | executed request response => exact absurd hout (hnone request response)
      | _ => rfl
    rw [hlog, List.append_nil]
    rcases hsame sid with heq | ⟨hbefore, hafter⟩
    · rw [heq]
      exact h sid
    · rw [hafter]
      have hsid := h sid
      rw [hbefore] at hsid
      exact recorded_unused cfg _ hsid

/-- Every ledger agrees with its history after every run. -/
theorem recorded_run (cfg : Config δ ω ι) (world : ω) (payloads : List Json) (sid : PyStr) :
    Recorded cfg
      ((Run.final (handleRequest cfg) (Server.init world) payloads).sessions.get? sid)
      (executedIn sid (Run.outputs (handleRequest cfg) (Server.init world) payloads)) := by
  induction payloads using List.reverseRecOn generalizing sid with
  | nil => exact ⟨rfl, fun e he => absurd he List.not_mem_nil, fun e he => by cases he⟩
  | append_singleton payloads payload ih =>
      rw [Run.final_concat, Run.outputs_concat]
      exact recorded_step cfg _ _ payload ih sid

/-- The four ways a session refuses a request: its last number with other
    content, an older number, a number after the next one, and a new session
    without room. -/
inductive Refused (cfg : Config δ ω ι) (server : Server δ ω ι) (log : List Outcome)
    (request : Request) : Prop where
  | conflicting (last : Request × Fields)
      (hlast : (executedIn request.sessionId log).getLast? = some last)
      (hseq : request.requestSeq = last.1.requestSeq)
      (hdiffers : ¬ (Json.obj request.payload).SameContent (.obj last.1.payload))
  | stale (h : request.requestSeq < server.lastSeq request.sessionId)
  | skipped (h : server.lastSeq request.sessionId + 1 < request.requestSeq)
  | capacity (hnew : server.sessions.get? request.sessionId = none)
      (hfull : cfg.maxSessions ≤ server.sessions.size)

/-- What a server promises to its sessions after a run: what has been executed,
    and what the next request can meet. -/
structure SessionsAtMostOnce (cfg : Config δ ω ι) (server : Server δ ω ι)
    (log : List Outcome) : Prop where
  inOrder : ∀ sid, (executedIn sid log).map (fun e => e.1.requestSeq) =
    List.range' 1 (server.lastSeq sid)
  resend : ∀ sid last payload, (executedIn sid log).getLast? = some last →
    payload.SameContent (.obj last.1.payload) →
    handleRequest cfg server payload = (server, .replayed last.2)
  refused : ∀ payload request, validateRequest payload = .ok request →
    Refused cfg server log request →
    (handleRequest cfg server payload).1 = server ∧
      (∀ request' response,
        (handleRequest cfg server payload).2 ≠ .executed request' response) ∧
      (payload.encodable = true →
        ∃ response, (handleRequest cfg server payload).2 = .rejected response)
  next : ∀ payload request, validateRequest payload = .ok request → payload.encodable = true →
    request.requestSeq = server.lastSeq request.sessionId + 1 →
    (server.sessions.get? request.sessionId = none → server.sessions.size < cfg.maxSessions) →
    ∃ response, (handleRequest cfg server payload).2 = .executed request response

omit [DecidableEq δ] in
/-- What was executed for a session names it. -/
theorem executedIn_sessionId (sid : PyStr) (log : List Outcome) (e : Request × Fields)
    (h : e ∈ executedIn sid log) : e.1.sessionId = sid := by
  induction log with
  | nil => exact absurd h List.not_mem_nil
  | cons o log ih =>
      cases o with
      | executed request response =>
          simp only [executedIn] at h
          by_cases hsid : request.sessionId = sid
          · rw [if_pos hsid] at h
            rcases List.mem_cons.mp h with rfl | hrest
            · exact hsid
            · exact ih hrest
          · rw [if_neg hsid] at h
            exact ih h
      | _ => exact ih h

omit [DecidableEq δ] in
/-- The last executed request of a session carries the ledger's number. -/
theorem Recorded.last_seq {cfg : Config δ ω ι} {ledger : SessionLedger δ}
    {done : List (Request × Fields)} (h : Recorded cfg (some ledger) done)
    (e : Request × Fields) (he : done.getLast? = some e) :
    e.1.requestSeq = ledger.lastSeq := by
  have hmap : (done.map (fun e => e.1.requestSeq)).getLast? = some e.1.requestSeq := by
    rw [List.getLast?_map, he, Option.map_some]
  rw [h.seqs, Option.map_some, Option.getD_some] at hmap
  cases hlast : ledger.lastSeq with
  | zero => rw [hlast] at hmap; cases hmap
  | succ n =>
      rw [hlast, List.range'_1_concat, List.getLast?_concat, Option.some.injEq] at hmap
      omega

/-- A resend of the last executed request is answered from the ledger. -/
theorem handleRequest_resend (cfg : Config δ ω ι) (server : Server δ ω ι) (sid : PyStr)
    (done : List (Request × Fields)) (last : Request × Fields) (payload : Json)
    (h : Recorded cfg (server.sessions.get? sid) done) (hsid : last.1.sessionId = sid)
    (hlast : done.getLast? = some last)
    (hsame : payload.SameContent (.obj last.1.payload)) :
    handleRequest cfg server payload = (server, .replayed last.2) := by
  rcases h.last last hlast with ⟨ledger, hget, hdig, hresp, henc⟩
  have hmem : last ∈ done := List.mem_of_getLast? hlast
  rcases validateRequest_sameContent _ payload last.1 hsame.symm (h.valid last hmem) with
    ⟨request, hvalid, hrsid, hrseq⟩
  cases payload with
  | obj fields =>
      rcases validateRequest_eq_ok fields request hvalid with ⟨_, _, _, hpayload, _, _⟩
      have hdigest : payloadDigest cfg.hash (.obj request.payload) =
          .ok (cfg.hash (Json.obj last.1.payload).sortKeys) := by
        rw [hpayload, payloadDigest, hsame.encodable_eq, if_pos henc, hsame]
      have hseq : request.requestSeq = ledger.lastSeq := by
        rw [hrseq]
        rw [hget] at h
        exact h.last_seq last hlast
      have hbegin := (SessionLedger.begin_eq_ok_replay ledger request.requestSeq
        (cfg.hash (Json.obj last.1.payload).sortKeys) last.2).mpr ⟨hseq, hdig, hresp⟩
      have hsession : getOrCreateSession cfg server request.sessionId request.requestSeq =
          .ok (server, ledger) := by
        rw [getOrCreateSession, hrsid, hsid, hget]
        rfl
      simp only [handleRequest, hvalid, admitRequest, hsession, hdigest, hbegin]
  | _ => exact absurd hvalid (throw_ne_ok _ _)

/-- A refused request leaves the server as it was. -/
theorem admit_refused (cfg : Config δ ω ι) (server : Server δ ω ι) (log : List Outcome)
    (request : Request) (hinj : DigestInjective cfg.hash)
    (h : ∀ sid, Recorded cfg (server.sessions.get? sid) (executedIn sid log))
    (hrefused : Refused cfg server log request) :
    (∃ rejection, admitRequest cfg server request = (server, .rejected rejection)) ∨
      ((Json.obj request.payload).encodable = false ∧
        ∃ error, admitRequest cfg server request = (server, .raised error)) := by
  cases hget : server.sessions.get? request.sessionId with
  | none =>
      -- Without a ledger only the first number could be let in, and there is no room.
      have hsession : ∃ rejection, getOrCreateSession cfg server request.sessionId
          request.requestSeq = .error rejection := by
        have hpos := request.seq_pos
        by_cases hseq : request.requestSeq = 1
        · cases hrefused with
          | conflicting last hlast _ _ =>
              have hrec := h request.sessionId
              rcases hrec.last last hlast with ⟨ledger, hledger, _⟩
              rw [hget] at hledger
              cases hledger
          | stale hstale => rw [Server.lastSeq, hget] at hstale; exact absurd hstale (by simp)
          | skipped hskip => rw [Server.lastSeq, hget, hseq] at hskip; exact absurd hskip (by simp)
          | capacity _ hfull =>
              exact ⟨_, by rw [getOrCreateSession, hget]; simp only [hseq, hfull]; rfl⟩
        · exact ⟨_, by rw [getOrCreateSession, hget]; simp only [if_pos hseq]; rfl⟩
      rcases hsession with ⟨rejection, hsession⟩
      exact Or.inl ⟨rejection, by simp only [admitRequest, hsession]⟩
  | some ledger =>
      have hsession : getOrCreateSession cfg server request.sessionId request.requestSeq =
          .ok (server, ledger) := by
        rw [getOrCreateSession, hget]
        rfl
      have hseq : server.lastSeq request.sessionId = ledger.lastSeq := by
        rw [Server.lastSeq, hget]
        rfl
      by_cases henc : (Json.obj request.payload).encodable = true
      · have hdigest : payloadDigest cfg.hash (.obj request.payload) =
            .ok (cfg.hash (Json.obj request.payload).sortKeys) := if_pos henc
        have hbegin : ∃ rejection, ledger.begin request.requestSeq
            (cfg.hash (Json.obj request.payload).sortKeys) = .error rejection := by
          have hrec := h request.sessionId
          rw [hget] at hrec
          cases hrefused with
          | conflicting last hlast hsame hdiffers =>
              have hlastSeq := hrec.last_seq last hlast
              refine SessionLedger.begin_refused ledger _ _ (fun _ hdig => ?_) (by omega)
              -- Equal digests would mean equal content.
              rcases hrec.last last hlast with ⟨ledger', hledger, hdig', _, henc'⟩
              cases hledger
              rw [hdig', Option.some.injEq] at hdig
              refine hdiffers (hinj _ _ henc henc' ?_)
              rw [hdigest, payloadDigest, if_pos henc', hdig]
          | stale hstale =>
              exact SessionLedger.begin_refused ledger _ _ (fun hc => by omega) (by omega)
          | skipped hskip =>
              exact SessionLedger.begin_refused ledger _ _ (fun hc => by omega) (by omega)
          | capacity hnew _ =>
              rw [hget] at hnew
              cases hnew
        rcases hbegin with ⟨rejection, hbegin⟩
        exact Or.inl ⟨rejection, by simp only [admitRequest, hsession, hdigest, hbegin]⟩
      · have hdigest : ∃ error, payloadDigest cfg.hash (Json.obj request.payload) =
            .error error := ⟨_, if_neg henc⟩
        rcases hdigest with ⟨error, hdigest⟩
        exact Or.inr ⟨by simpa using henc, error, by simp only [admitRequest, hsession, hdigest]⟩

/-- The next request of a session is executed, whatever executing it does. -/
theorem handleRequest_next (cfg : Config δ ω ι) (server : Server δ ω ι) (payload : Json)
    (request : Request) (hvalid : validateRequest payload = .ok request)
    (henc : payload.encodable = true)
    (hseq : request.requestSeq = server.lastSeq request.sessionId + 1)
    (hroom : server.sessions.get? request.sessionId = none →
      server.sessions.size < cfg.maxSessions) :
    ∃ response, (handleRequest cfg server payload).2 = .executed request response := by
  cases payload with
  | obj fields =>
      rcases validateRequest_eq_ok fields request hvalid with ⟨_, _, _, hpayload, _, _⟩
      have hsession : ∃ server' ledger, getOrCreateSession cfg server request.sessionId
          request.requestSeq = .ok (server', ledger) ∧
          ledger.lastSeq = server.lastSeq request.sessionId := by
        -- The session is there, or there is room for a new one, whose first number is one.
        cases hget : server.sessions.get? request.sessionId with
        | some ledger =>
            refine ⟨server, ledger, ?_, by rw [Server.lastSeq, hget]; rfl⟩
            rw [getOrCreateSession, hget]
            rfl
        | none =>
            have hfirst : request.requestSeq = 1 := by
              rw [hseq, Server.lastSeq, hget]
              rfl
            have hcap : ¬ cfg.maxSessions ≤ server.sessions.size := by
              have := hroom hget
              omega
            refine ⟨{ server with
              sessions := server.sessions.set request.sessionId SessionLedger.new },
              SessionLedger.new, ?_, by rw [Server.lastSeq, hget]; rfl⟩
            rw [getOrCreateSession, hget]
            simp only [hfirst, hcap]
            rfl
      rcases hsession with ⟨server', ledger, hsession, hlast⟩
      have hdigest : payloadDigest cfg.hash (.obj request.payload) =
          .ok (cfg.hash (Json.obj request.payload).sortKeys) := by
        rw [hpayload]
        exact if_pos henc
      -- The number is the next of the ledger, so the request is fresh.
      have hbegin := (SessionLedger.begin_eq_ok_fresh ledger _ request.requestSeq
        (cfg.hash (Json.obj request.payload).sortKeys)).mpr ⟨by rw [hseq, hlast], rfl⟩
      simp only [handleRequest, hvalid, admitRequest, hsession, hdigest, hbegin]
      exact ⟨_, rfl⟩
  | _ => exact absurd hvalid (throw_ne_ok _ _)

/-- Over any run, whatever the instances do, every session has had exactly its
    first requests executed, in order and once each; a resend of the last one
    is answered from the ledger, a refused request changes nothing, and the
    next one is executed. -/
theorem session_at_most_once (cfg : Config δ ω ι) (hinj : DigestInjective cfg.hash) (world : ω)
    (payloads : List Json) :
    SessionsAtMostOnce cfg (Run.final (handleRequest cfg) (Server.init world) payloads)
      (Run.outputs (handleRequest cfg) (Server.init world) payloads) := by
  have hrec := recorded_run cfg world payloads
  refine ⟨fun sid => (hrec sid).seqs, ?_, ?_, ?_⟩
  · intro sid last payload hlast hsame
    have hsid := executedIn_sessionId sid _ last (List.mem_of_getLast? hlast)
    exact handleRequest_resend cfg _ sid _ last payload (hrec sid) hsid hlast hsame
  · intro payload request hvalid hrefused
    cases payload with
    | obj fields =>
        rcases validateRequest_eq_ok fields request hvalid with ⟨_, _, _, hpayload, _, _⟩
        rcases admit_refused cfg _ _ request hinj hrec hrefused with
          ⟨rejection, hadmits⟩ | ⟨henc, error, hadmits⟩
        · simp only [handleRequest, hvalid, hadmits]
          exact ⟨trivial, fun _ _ hc => (by cases hc), fun _ => ⟨_, rfl⟩⟩
        · rw [hpayload] at henc
          simp only [handleRequest, hvalid, hadmits, henc]
          exact ⟨trivial, fun _ _ hc => (by cases hc), fun hc => (by cases hc)⟩
    | _ => exact absurd hvalid (throw_ne_ok _ _)
  · intro payload request hvalid henc hseq hroom
    exact handleRequest_next cfg _ payload request hvalid henc hseq hroom

/-- Instances that answer every call, for a world without state. -/
def answeringOps : InstanceOps Unit Unit where
  construct := fun _ _ _ _ => ((), .ok ())
  instanceType := fun _ => some (.text instanceTypeCombat)
  startInstanceResponse := fun _ _ =>
    ((), (), .ok (.obj [(.text "status", .str (.text statusCompleted))]))
  call := fun _ _ _ => ((), (), .ok (.obj [(.text "status", .str (.text statusCompleted))]))
  close := fun _ _ => ((), (), .ok ())

/-- A server whose digest is the sorted payload itself. -/
def transparentConfig : Config Json Unit Unit :=
  ⟨2, .text "epoch", id, answeringOps, by decide⟩

/-- A `start_instance` request for a combat instance. -/
def startRequest (sessionId : String) (requestSeq : Nat) : Json :=
  .obj [(.text "schema_version", .str (.text schemaVersion)),
    (.text "client_session_id", .str (.text sessionId)),
    (.text "request_seq", .int requestSeq),
    (.text "request_id", .str (requestIdFor (.text sessionId) requestSeq)),
    (.text "operation", .str (.text "start_instance")),
    (.text "instance_config", .obj [(.text "instance_type", .str (.text "combat"))])]

theorem digestInjective_id : DigestInjective (id : Json → Json) := by
  intro p q hp hq h
  rw [payloadDigest, payloadDigest, if_pos hp, if_pos hq] at h
  exact Except.ok.inj h

theorem session_at_most_once_two_sessions :
    SessionsAtMostOnce transparentConfig
      (Run.final (handleRequest transparentConfig) (Server.init ())
        [startRequest "a" 1, startRequest "b" 1, startRequest "a" 1])
      (Run.outputs (handleRequest transparentConfig) (Server.init ())
        [startRequest "a" 1, startRequest "b" 1, startRequest "a" 1]) :=
  session_at_most_once transparentConfig digestInjective_id ()
    [startRequest "a" 1, startRequest "b" 1, startRequest "a" 1]

end Api

end STS2RL
