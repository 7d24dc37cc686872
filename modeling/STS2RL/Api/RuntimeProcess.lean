import Mathlib.Algebra.Order.Ring.NNRat
import STS2RL.Core.Run
import STS2RL.Api.Server

/-!
# The Runtime Process

`RLApiServerProcess`: the server in a process of its own, behind two queues. The
process answers what it is sent one by one and in order, each after a delay of
its own, and perhaps never. A call waits for the head of the answer queue for a
limited time.

A call that gives up leaves its answer behind. If a later call still waits, or
comes, after that answer has arrived, it takes it for its own, finds another id
on it, and raises.

## Main definitions

* `runtimeAnswer`: What the process does with one payload.
* `RuntimeProcess`, `RuntimeProcess.call`: The two processes, and a call.
* `Paired`: A call is given its own response, or its own timeout response.
* `Undisturbed`: When no answer that came too late is met by a later call.

## Theorems

* `along_of_idle`, `along_of_late`, `along_of_stuck`: The rest of a run, from each
  of the states that a run can be in.
* `calls_paired_iff`: Every call of a run is paired exactly when the run is
  undisturbed.
-/

namespace STS2RL

namespace Api

variable {δ ω ι : Type} [DecidableEq δ]

/-- One round of `_rl_runtime_process_main`. What the server raises is reported. -/
def runtimeAnswer (cfg : Config δ ω ι) (server : Server δ ω ι) (payload : Fields) :
    Server δ ω ι × Fields :=
  match handleRequest cfg server (.obj payload) with
  | (server, .rejected response) => (server, response)
  | (server, .replayed response) => (server, response)
  | (server, .executed _ response) => (server, response)
  | (server, .raised error) => (server, faultResponse payload error)

/-- `FAULT_TASK_TIMEOUT`. -/
def faultTaskTimeout : String := "task_timeout"

/-- What a call that gives up returns. -/
def timeoutResponse (payload : Fields) : Fields :=
  withInstanceId payload
    [(.text "schema_version", .str (.text schemaVersion)),
      (.text "request_id", getOrNull payload "request_id"),
      (.text "operation", getOrNull payload "operation"),
      (.text "status", .str (.text statusFaulted)),
      (.text "error", .str (.text "RL Runtime process did not respond within request_timeout_s")),
      (.text "fault_kind", .str (.text faultTaskTimeout))]

/-- An answer on the out queue, from the time it has arrived there. -/
structure QueuedAnswer where
  arrival : NNRat
  internalId : Nat
  response : Fields

/-- A call: how long after the end of the last one it is made, and how long the
    process takes for it, where it ever answers. -/
structure RuntimeCall where
  gap : NNRat
  payload : Fields
  delay : Option NNRat

/-- The two processes. `free` is when the runtime process has answered what it was
    sent so far. -/
structure RuntimeProcess (δ ω ι : Type) where
  server : Server δ ω ι
  now : NNRat := 0
  free : Option NNRat := some 0
  outQueue : List QueuedAnswer := []
  nextInternalId : Nat := 0

namespace RuntimeProcess

variable (cfg : Config δ ω ι) (requestTimeout : NNRat)

/-- When the answer to a payload arrives that is sent now. -/
def arrival (now : NNRat) : Option NNRat → Option NNRat → Option NNRat
  | some free, some delay => some (max now free + delay)
  | _, _ => none

/-- `self._in_queue.put`, and what the process makes of it. -/
def send (process : RuntimeProcess δ ω ι) (call : RuntimeCall) : RuntimeProcess δ ω ι :=
  let now := process.now + call.gap
  let internalId := process.nextInternalId + 1
  let answered := runtimeAnswer cfg process.server call.payload
  { server := answered.1
    now
    free := arrival now process.free call.delay
    outQueue := process.outQueue ++
      match arrival now process.free call.delay with
      | some time => [⟨time, internalId, answered.2⟩]
      | none => []
    nextInternalId := internalId }

/-- The error of a response that belongs to another call. -/
def outOfOrder : PyError :=
  .raised "RuntimeError" "RLApiServerProcess.call() received an out-of-order response"

/-- `self._out_queue.get(timeout=...)`, and what the call makes of it. -/
def receive (process : RuntimeProcess δ ω ι) (payload : Fields) :
    RuntimeProcess δ ω ι × Except PyError Fields :=
  match process.outQueue with
  | answer :: rest =>
      if answer.arrival ≤ process.now + requestTimeout then
        ({ process with now := max process.now answer.arrival, outQueue := rest },
          if answer.internalId ≠ process.nextInternalId then .error outOfOrder
          else .ok answer.response)
      else ({ process with now := process.now + requestTimeout }, .ok (timeoutResponse payload))
  | [] => ({ process with now := process.now + requestTimeout }, .ok (timeoutResponse payload))

/-- `call`. -/
def call (process : RuntimeProcess δ ω ι) (call : RuntimeCall) :
    RuntimeProcess δ ω ι × Except PyError Fields :=
  receive requestTimeout (process.send cfg call) call.payload

/-- A call is given the response to its own payload, or its own timeout response. -/
def Paired (process : RuntimeProcess δ ω ι) (c : RuntimeCall) : Prop :=
  (process.call cfg requestTimeout c).2 = .ok (runtimeAnswer cfg process.server c.payload).2 ∨
    (process.call cfg requestTimeout c).2 = .ok (timeoutResponse c.payload)

end RuntimeProcess

section Timing

variable (requestTimeout : NNRat)

/-- An answer that is late arrives after the calls, made from some time on and each
    waiting in vain, have ended. -/
def ArrivesAfter (late : NNRat) : NNRat → List RuntimeCall → Prop
  | _, [] => True
  | now, c :: rest => now + c.gap + requestTimeout < late ∧
      ArrivesAfter late (now + c.gap + requestTimeout) rest

/-- Up to the first call that gives up, every answer comes in time. After it, the
    answer to that call comes never, or after every later call has ended. -/
def Undisturbed : NNRat → List RuntimeCall → Prop
  | _, [] => True
  | now, c :: rest =>
      match c.delay with
      | none => True
      | some delay =>
          if delay ≤ requestTimeout then Undisturbed (now + c.gap + delay) rest
          else ArrivesAfter requestTimeout (now + c.gap + delay)
            (now + c.gap + requestTimeout) rest

end Timing

section Runs

open RuntimeProcess

variable (cfg : Config δ ω ι) (requestTimeout : NNRat)

/-- Nothing is under way: what was sent is answered, and what was answered is read. -/
def Idle (process : RuntimeProcess δ ω ι) : Prop :=
  process.outQueue = [] ∧ ∃ free, process.free = some free ∧ free ≤ process.now

/-- The answer to an earlier call is still to arrive. -/
def Late (process : RuntimeProcess δ ω ι) (late : NNRat) : Prop :=
  ∃ answer rest, process.outQueue = answer :: rest ∧ answer.arrival = late ∧
    answer.internalId ≤ process.nextInternalId

/-- Nothing is answered any more. -/
def Stuck (process : RuntimeProcess δ ω ι) : Prop :=
  process.outQueue = [] ∧ process.free = none

variable {cfg requestTimeout} {process : RuntimeProcess δ ω ι} (c : RuntimeCall)

omit [DecidableEq δ] in
/-- No answer is there in time. -/
theorem receive_of_none (payload : Fields)
    (h : ∀ answer rest, process.outQueue = answer :: rest →
      process.now + requestTimeout < answer.arrival) :
    receive requestTimeout process payload =
      ({ process with now := process.now + requestTimeout }, .ok (timeoutResponse payload)) := by
  unfold receive
  split
  · rename_i answer rest hqueue
    rw [if_neg (not_le.mpr (h answer rest hqueue))]
  · rfl

omit [DecidableEq δ] in
/-- The head of the queue is there in time. -/
theorem receive_of_arrived (payload : Fields) {answer : QueuedAnswer} {rest : List QueuedAnswer}
    (hqueue : process.outQueue = answer :: rest)
    (hintime : answer.arrival ≤ process.now + requestTimeout) :
    receive requestTimeout process payload =
      ({ process with now := max process.now answer.arrival, outQueue := rest },
        if answer.internalId ≠ process.nextInternalId then .error outOfOrder
        else .ok answer.response) := by
  unfold receive
  rw [hqueue]
  dsimp only
  rw [if_pos hintime]

/-- A call while nothing is answered waits in vain. -/
theorem call_of_stuck (h : Stuck process) :
    Paired cfg requestTimeout process c ∧ Stuck (process.call cfg requestTimeout c).1 := by
  have hqueue : (process.send cfg c).outQueue = [] := by
    simp only [send, h.1, h.2, arrival, List.append_nil]
  have hcall : process.call cfg requestTimeout c =
      ({ process.send cfg c with now := (process.send cfg c).now + requestTimeout },
        .ok (timeoutResponse c.payload)) :=
    receive_of_none c.payload fun answer rest h => by
      rw [hqueue] at h
      cases h
  refine ⟨.inr (by rw [hcall]), ?_⟩
  rw [hcall]
  exact ⟨hqueue, by simp only [send, h.2, arrival]⟩

variable (cfg requestTimeout) in
/-- A call while an earlier answer is still to arrive waits in vain, or raises when
    it arrives. -/
theorem call_of_late {late : NNRat} (h : Late process late) :
    (late ≤ process.now + c.gap + requestTimeout → ¬ Paired cfg requestTimeout process c) ∧
    (process.now + c.gap + requestTimeout < late →
      Paired cfg requestTimeout process c ∧
      Late (process.call cfg requestTimeout c).1 late ∧
      (process.call cfg requestTimeout c).1.now = process.now + c.gap + requestTimeout) := by
  rcases h with ⟨answer, rest, hqueue, rfl, hid⟩
  -- The late answer is still the first in the queue when the next call is sent.
  have hsent : ∃ rest', (process.send cfg c).outQueue = answer :: rest' := by
    simp only [send, hqueue, List.cons_append]
    exact ⟨_, rfl⟩
  rcases hsent with ⟨rest', hsent⟩
  have hnow : (process.send cfg c).now = process.now + c.gap := rfl
  have hnext : (process.send cfg c).nextInternalId = process.nextInternalId + 1 := rfl
  constructor
  -- If it arrives in time, the call takes it for its own and finds the wrong number.
  · intro harrived
    have hcall : (process.call cfg requestTimeout c).2 = .error outOfOrder := by
      unfold RuntimeProcess.call
      rw [receive_of_arrived c.payload hsent (by rw [hnow]; exact harrived)]
      dsimp only
      rw [if_pos (by rw [hnext]; omega)]
    rintro (hown | htimeout)
    · rw [hcall] at hown
      cases hown
    · rw [hcall] at htimeout
      cases htimeout
  -- If not, the call runs out of time, and the answer is as late as before.
  · intro hlate
    have hcall : process.call cfg requestTimeout c =
        ({ process.send cfg c with now := (process.send cfg c).now + requestTimeout },
          .ok (timeoutResponse c.payload)) :=
      receive_of_none c.payload fun answer' rest h => by
        rw [hsent] at h
        cases h
        rw [hnow]
        exact hlate
    refine ⟨.inr (by rw [hcall]), ?_, by rw [hcall, hnow]⟩
    rw [hcall]
    refine ⟨answer, rest', hsent, rfl, ?_⟩
    rw [hnext]
    omega

variable (cfg requestTimeout) in
/-- A call while nothing is under way is answered in time, or leaves its answer
    behind. -/
theorem call_of_idle (h : Idle process) :
    Paired cfg requestTimeout process c ∧
    (c.delay = none → Stuck (process.call cfg requestTimeout c).1) ∧
    ∀ delay, c.delay = some delay →
      (delay ≤ requestTimeout → Idle (process.call cfg requestTimeout c).1 ∧
        (process.call cfg requestTimeout c).1.now = process.now + c.gap + delay) ∧
      (¬ delay ≤ requestTimeout →
        Late (process.call cfg requestTimeout c).1 (process.now + c.gap + delay) ∧
        (process.call cfg requestTimeout c).1.now = process.now + c.gap + requestTimeout) := by
  -- The process is free, so the request is begun when it is sent.
  rcases h with ⟨hqueue, free, hfree, hle⟩
  have hmax : max (process.now + c.gap) free = process.now + c.gap :=
    max_eq_left (le_trans hle le_self_add)
  cases hdelay : c.delay with
  -- A process that never answers is stuck from then on.
  | none =>
      have harrival : arrival (process.now + c.gap) process.free c.delay = none := by
        rw [hdelay]
        cases process.free <;> rfl
      have hempty : (process.send cfg c).outQueue = [] := by
        simp only [send, hqueue, harrival, List.append_nil]
      have hcall : process.call cfg requestTimeout c =
          ({ process.send cfg c with now := (process.send cfg c).now + requestTimeout },
            .ok (timeoutResponse c.payload)) :=
        receive_of_none c.payload fun answer rest h => by
          rw [hempty] at h
          cases h
      refine ⟨.inr (by rw [hcall]), fun _ => ?_, fun delay h => by cases h⟩
      rw [hcall]
      exact ⟨hempty, by simp only [send, harrival]⟩
  | some delay =>
      have harrival : arrival (process.now + c.gap) process.free c.delay =
          some (process.now + c.gap + delay) := by
        rw [hdelay, hfree]
        simp only [arrival, hmax]
      -- One answer will arrive, with the call's own number.
      have hone : (process.send cfg c).outQueue = [⟨process.now + c.gap + delay,
          process.nextInternalId + 1, (runtimeAnswer cfg process.server c.payload).2⟩] := by
        simp only [send, hqueue, harrival, List.nil_append]
      have hnow : (process.send cfg c).now = process.now + c.gap := rfl
      have hnext : (process.send cfg c).nextInternalId = process.nextInternalId + 1 := rfl
      have hfree' : (process.send cfg c).free = some (process.now + c.gap + delay) := harrival
      -- It arrives in time and is taken, or it comes too late and stays in the queue.
      by_cases hintime : delay ≤ requestTimeout
      · have hcall : process.call cfg requestTimeout c =
            ({ process.send cfg c with now := process.now + c.gap + delay, outQueue := [] },
              .ok (runtimeAnswer cfg process.server c.payload).2) := by
          unfold RuntimeProcess.call
          rw [receive_of_arrived c.payload hone (by
            rw [hnow]
            exact add_le_add (le_refl _) hintime)]
          dsimp only
          rw [if_neg (by rw [hnext]; omega), hnow, max_eq_right le_self_add]
        refine ⟨.inl (by rw [hcall]), fun h => (by cases h), fun delay' hdelay' => ?_⟩
        cases hdelay'
        refine ⟨fun _ => ?_, fun h => absurd hintime h⟩
        rw [hcall]
        exact ⟨⟨rfl, _, hfree', le_refl _⟩, rfl⟩
      · have hcall : process.call cfg requestTimeout c =
            ({ process.send cfg c with now := (process.send cfg c).now + requestTimeout },
              .ok (timeoutResponse c.payload)) :=
          receive_of_none c.payload fun answer rest h => by
            rw [hone] at h
            cases h
            rw [hnow]
            exact add_lt_add_of_le_of_lt (le_refl _) (not_le.mp hintime)
        refine ⟨.inr (by rw [hcall]), fun h => (by cases h), fun delay' hdelay' => ?_⟩
        cases hdelay'
        refine ⟨fun h => absurd h hintime, fun _ => ?_⟩
        rw [hcall]
        exact ⟨⟨_, [], hone, rfl, by rw [hnext]⟩, by rw [hnow]⟩

/-- The calls are paired, every one. -/
abbrev AllPaired (cfg : Config δ ω ι) (requestTimeout : NNRat) (process : RuntimeProcess δ ω ι)
    (calls : List RuntimeCall) : Prop :=
  Run.Along (RuntimeProcess.call cfg requestTimeout) (Paired cfg requestTimeout) process calls

theorem along_of_stuck (calls : List RuntimeCall) (h : Stuck process) :
    AllPaired cfg requestTimeout process calls := by
  induction calls generalizing process with
  | nil => trivial
  | cons c rest ih => exact ⟨(call_of_stuck c h).1, ih (call_of_stuck c h).2⟩

variable (cfg requestTimeout) in
/-- While an answer is late, the calls are paired exactly if it arrives after all of them. -/
theorem along_of_late (calls : List RuntimeCall) {late : NNRat} (h : Late process late) :
    AllPaired cfg requestTimeout process calls ↔
      ArrivesAfter requestTimeout late process.now calls := by
  induction calls generalizing process with
  | nil => exact ⟨fun _ => trivial, fun _ => trivial⟩
  | cons c rest ih =>
      rcases call_of_late cfg requestTimeout c h with
        ⟨harrived, hsilent⟩
      by_cases hlate : process.now + c.gap + requestTimeout < late
      · rcases hsilent hlate with ⟨hpaired, hstill, hnow⟩
        have hrest := ih hstill
        rw [hnow] at hrest
        simp only [AllPaired, Run.Along, ArrivesAfter] at hrest ⊢
        rw [hrest]
        simp only [hpaired, hlate]
      · constructor
        · intro hall
          exact absurd hall.1 (harrived (not_lt.mp hlate))
        · intro hafter
          exact absurd hafter.1 hlate

variable (cfg requestTimeout) in
/-- From an idle process the calls are paired exactly when each is answered in time. -/
theorem along_of_idle (calls : List RuntimeCall) (h : Idle process) :
    AllPaired cfg requestTimeout process calls ↔
      Undisturbed requestTimeout process.now calls := by
  induction calls generalizing process with
  | nil => exact ⟨fun _ => trivial, fun _ => trivial⟩
  | cons c rest ih =>
      rcases call_of_idle cfg requestTimeout c h with
        ⟨hpaired, hnever, hever⟩
      unfold Undisturbed
      cases hdelay : c.delay with
      | none => exact ⟨fun _ => trivial, fun _ => ⟨hpaired, along_of_stuck rest (hnever hdelay)⟩⟩
      | some delay =>
          rcases hever delay hdelay with ⟨hintime, htoolate⟩
          dsimp only
          by_cases hle : delay ≤ requestTimeout
          · rcases hintime hle with ⟨hidle, hnow⟩
            have hrest := ih hidle
            rw [hnow] at hrest
            rw [if_pos hle, ← hrest]
            exact ⟨fun hall => hall.2, fun hall => ⟨hpaired, hall⟩⟩
          · rcases htoolate hle with ⟨hlate, hnow⟩
            have hrest := along_of_late cfg requestTimeout rest hlate
            rw [hnow] at hrest
            rw [if_neg hle, ← hrest]
            exact ⟨fun hall => hall.2, fun hall => ⟨hpaired, hall⟩⟩

end Runs

/-- For every sequence of calls and every delay of the process on each of them: the
    calls are given their own responses, or their own timeout responses, exactly
    when no answer that came too late for its call arrives before a later call has
    ended. -/
theorem calls_paired_iff (cfg : Config δ ω ι) (requestTimeout : NNRat) (server : Server δ ω ι)
    (calls : List RuntimeCall) :
    Run.Along (RuntimeProcess.call cfg requestTimeout)
        (RuntimeProcess.Paired cfg requestTimeout) { server } calls ↔
      Undisturbed requestTimeout 0 calls :=
  along_of_idle cfg requestTimeout calls ⟨rfl, 0, rfl, le_refl _⟩

/-- A server whose instances can do nothing. -/
def idleConfig : Config Unit Unit Unit where
  maxSessions := 1
  serverEpoch := .text "epoch"
  hash _ := ()
  ops :=
    { construct := fun world _ _ _ => (world, .ok ())
      instanceType := fun _ => none
      startInstanceResponse := fun world inst => (world, inst, .ok .null)
      call := fun world inst _ => (world, inst, .ok .null)
      close := fun world inst => (world, inst, .ok ()) }
  maxSessions_pos := by decide

/-- A call whose answer takes two seconds, and one that is made a second after the
    first has given up. -/
def lateThenPrompt : List RuntimeCall :=
  [⟨0, [(.text "request_id", .str (.text "r-1"))], some 2⟩,
    ⟨1, [(.text "request_id", .str (.text "r-1"))], some 0⟩]

/-- With a limit of one second the second call takes the first one's answer, and
    raises. -/
theorem late_answer_not_paired :
    ¬ Run.Along (RuntimeProcess.call idleConfig 1) (RuntimeProcess.Paired idleConfig 1)
      { server := Server.init () } lateThenPrompt := by
  have hiff := along_of_idle idleConfig 1 lateThenPrompt
    (show Idle { server := Server.init () } from ⟨rfl, 0, rfl, le_refl _⟩)
  rw [AllPaired] at hiff
  rw [hiff]
  unfold lateThenPrompt Undisturbed
  dsimp only
  rw [if_neg (by decide +kernel)]
  intro hafter
  exact absurd hafter.1 (by decide +kernel)

end Api

end STS2RL
