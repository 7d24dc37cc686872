import STS2RL.Api.Validation

/-!
# The Session Ledger

One ledger belongs to one logical client session. It retains only the last
executable request, by sequence number and digest, and the terminal response to
it: a retry of that number is answered from the ledger, the next new request
must carry the number after it, and everything else is refused before the
ledger changes.

The digest of a payload is a hash of its compact text with sorted members. The
text is fixed by the sorted value and can be encoded exactly when the value can,
so the hash is a parameter on sorted values and an unencodable payload has no
digest: computing it raises, as encoding the text does.

## Main definitions

* `payloadDigest`: The digest of a payload, or the encoder's exception.
* `SessionLedger`: The state kept for one client session.
* `SessionLedger.begin`: Refuse, replay, or open a new request.
* `DigestInjective`: The hash tells encodable payloads of different content
  apart.

## Theorems

* `begin_eq_ok_replay`, `begin_eq_ok_fresh`: When a request is replayed and
  when it opens.
* `begin_refused`: Everything else is refused.
-/

namespace STS2RL

namespace Api

open STS2RL.Except

variable {δ : Type}

/-- `_payload_digest`. Encoding the text of a lone surrogate raises. -/
def payloadDigest (hash : Json → δ) (payload : Json) : Except PyError δ :=
  if payload.encodable then .ok (hash payload.sortKeys)
  else .error (.raised "UnicodeEncodeError" "surrogates not allowed")

/-- Encodable payloads with one digest have the same content. -/
def DigestInjective (hash : Json → δ) : Prop :=
  ∀ p q : Json, p.encodable = true → q.encodable = true →
    payloadDigest hash p = payloadDigest hash q → p.SameContent q

/-- `FAULT_SESSION_SEQUENCE_CONFLICT`. -/
def faultSessionSequenceConflict : String := "session_sequence_conflict"

/-- `FAULT_SESSION_SEQUENCE_GAP`. -/
def faultSessionSequenceGap : String := "session_sequence_gap"

/-- The last executable request of one client session and its response. -/
structure SessionLedger (δ : Type) where
  lastSeq : Nat
  lastDigest : Option δ
  lastResponse : Option Fields
  activeInstanceId : Option PyStr

/-- What a ledger makes of a request it does not refuse: the stored response, or
    the ledger with the request opened on it. -/
inductive Begun (δ : Type) where
  | replay (response : Fields)
  | fresh (ledger : SessionLedger δ)

namespace SessionLedger

/-- A ledger that has answered nothing. -/
def new : SessionLedger δ := ⟨0, none, none, none⟩

variable [DecidableEq δ]

/-- Refuse a request, replay its response, or open it. -/
def begin (ledger : SessionLedger δ) (seq : Nat) (digest : δ) : Except Rejection (Begun δ) :=
  if seq = ledger.lastSeq then
    if ledger.lastDigest ≠ some digest then
      throw ⟨"request_seq " ++ toString seq ++ " reused with different content",
        some faultSessionSequenceConflict⟩
    else
      match ledger.lastResponse with
      | none =>
          throw ⟨"request_seq " ++ toString seq ++ " is already in flight",
            some faultSessionSequenceConflict⟩
      | some response => pure (.replay response)
  else if seq ≠ ledger.lastSeq + 1 then
    throw ⟨"request_seq must be " ++ toString (ledger.lastSeq + 1) ++ ", got " ++ toString seq,
      some faultSessionSequenceGap⟩
  else
    pure (.fresh { ledger with lastSeq := seq, lastDigest := some digest, lastResponse := none })

/-- Store the terminal response of the open request. -/
def complete (ledger : SessionLedger δ) (response : Fields) : SessionLedger δ :=
  { ledger with lastResponse := some response }

/-- A request is replayed when it has the number and the digest of the last one
    and the last one has a response. -/
theorem begin_eq_ok_replay (ledger : SessionLedger δ) (seq : Nat) (digest : δ)
    (response : Fields) :
    ledger.begin seq digest = .ok (.replay response) ↔
      seq = ledger.lastSeq ∧ ledger.lastDigest = some digest ∧
        ledger.lastResponse = some response := by
  unfold begin
  by_cases hseq : seq = ledger.lastSeq
  · rw [if_pos hseq]
    by_cases hdig : ledger.lastDigest = some digest
    · rw [if_neg (not_not_intro hdig)]
      cases hresp : ledger.lastResponse with
      | none => simp
      | some stored => simp [hseq, hdig]
    · rw [if_pos hdig]
      simp [hdig]
  · rw [if_neg hseq]
    simp only [hseq, false_and, iff_false]
    split <;> simp

/-- A request opens exactly when it carries the next number. -/
theorem begin_eq_ok_fresh (ledger ledger' : SessionLedger δ) (seq : Nat) (digest : δ) :
    ledger.begin seq digest = .ok (.fresh ledger') ↔
      seq = ledger.lastSeq + 1 ∧
        ledger' = { ledger with
          lastSeq := seq, lastDigest := some digest, lastResponse := none } := by
  unfold begin
  by_cases hseq : seq = ledger.lastSeq
  · rw [if_pos hseq]
    have hne : seq ≠ ledger.lastSeq + 1 := by omega
    simp only [hne, false_and, iff_false]
    split
    · simp
    · cases ledger.lastResponse <;>
        simp
  · rw [if_neg hseq]
    by_cases hnext : seq = ledger.lastSeq + 1
    · rw [if_neg (not_not_intro hnext)]
      simp only [hnext, true_and, pure_eq_ok, Begun.fresh.injEq]
      exact eq_comm
    · rw [if_pos hnext]
      simp [hnext]

/-- What is neither a replay nor the next number is refused. -/
theorem begin_refused (ledger : SessionLedger δ) (seq : Nat) (digest : δ)
    (hreplay : seq = ledger.lastSeq → ledger.lastDigest ≠ some digest)
    (hnext : seq ≠ ledger.lastSeq + 1) :
    ∃ rejection, ledger.begin seq digest = .error rejection := by
  unfold begin
  by_cases hseq : seq = ledger.lastSeq
  · rw [if_pos hseq, if_pos (hreplay hseq)]
    exact ⟨_, rfl⟩
  · rw [if_neg hseq, if_pos hnext]
    exact ⟨_, rfl⟩

end SessionLedger

end Api

end STS2RL
