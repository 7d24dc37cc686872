import Mathlib.Logic.Function.Basic
import STS2RL.Api.AtMostOnce
import STS2RL.Api.ReprText

/-!
# Ownership of Instances

A session's ledger names the instance it owns, and the server's table holds the
instances. The two are changed at different moments, some of them in exception
handlers. Still they agree after every request: the table holds exactly the
instances that are owned, and each has one owner.

What a request does to the two is one of three things: nothing, a new instance
for a session that has none, or the end of a session's instance. A start that
fails is of the first kind because its instance is of a number that was never
given before, so forgetting it leaves the table as it was.

## Main definitions

* `Owns`: The owners and what they own.
* `activeOf`: The instance that a session's ledger names.
* `OwnershipChange`: What a request does to an owner and the table.

## Theorems

* `Owns.grant`, `Owns.revoke`: A new thing for an owner that has none, and the
  end of an owner's thing.
* `instanceIdFor_inj`: Instances of different numbers have different ids.
* `executeNewRequest_change`: An operation is one of the three changes.
* `ownership_exact`: The agreement, after any requests.
-/

namespace STS2RL

namespace Api

/-!
### Owners

Who owns what: each instance one session, and each session one instance.
-/

section Owners

variable {κ ν : Type}

/-- What is held is exactly what is owned, by one owner each. -/
structure Owns (active : κ → Option ν) (held : ν → Prop) : Prop where
  distinct : ∀ k k' v, active k = some v → active k' = some v → k = k'
  exact : ∀ v, (∃ k, active k = some v) ↔ held v

variable [DecidableEq κ] {active : κ → Option ν} {held held' : ν → Prop}

/-- An owner that has nothing is given something that nobody has. -/
theorem Owns.grant (h : Owns active held) {owner : κ} {thing : ν} (hnone : active owner = none)
    (hnew : ¬ held thing) (hheld : ∀ v, held' v ↔ v = thing ∨ held v) :
    Owns (Function.update active owner (some thing)) held' := by
  -- Nobody owns what is not held yet.
  have hunowned : ∀ k, active k ≠ some thing := fun k hk => hnew ((h.exact thing).mp ⟨k, hk⟩)
  refine ⟨fun k k' v hk hk' => ?_, fun v => ?_⟩
  -- Two owners of one thing: the new owner has the new thing only, and the others have what they
  -- had.
  · by_cases howner : k = owner
    · rw [howner, Function.update_self] at hk
      cases hk
      by_cases howner' : k' = owner
      · rw [howner, howner']
      · rw [Function.update_of_ne howner'] at hk'
        exact absurd hk' (hunowned k')
    · rw [Function.update_of_ne howner] at hk
      by_cases howner' : k' = owner
      · rw [howner', Function.update_self] at hk'
        cases hk'
        exact absurd hk (hunowned k)
      · rw [Function.update_of_ne howner'] at hk'
        exact h.distinct k k' v hk hk'
  · rw [hheld, ← h.exact]
    constructor
    · rintro ⟨k, hk⟩
      by_cases howner : k = owner
      · rw [howner, Function.update_self] at hk
        cases hk
        exact .inl rfl
      · rw [Function.update_of_ne howner] at hk
        exact .inr ⟨k, hk⟩
    · rintro (rfl | ⟨k, hk⟩)
      · exact ⟨owner, Function.update_self _ _ _⟩
      · refine ⟨k, ?_⟩
        rw [Function.update_of_ne, hk]
        rintro rfl
        rw [hnone] at hk
        cases hk

/-- What an owner has ends. -/
theorem Owns.revoke (h : Owns active held) {owner : κ} {thing : ν}
    (howns : active owner = some thing) (hheld : ∀ v, held' v ↔ v ≠ thing ∧ held v) :
    Owns (Function.update active owner none) held' := by
  have hother : ∀ k v, Function.update active owner none k = some v ↔
      k ≠ owner ∧ active k = some v := by
    intro k v
    by_cases howner : k = owner
    · rw [howner, Function.update_self]
      simp
    · rw [Function.update_of_ne howner]
      simp [howner]
  refine ⟨fun k k' v hk hk' => ?_, fun v => ?_⟩
  · exact h.distinct k k' v ((hother k v).mp hk).2 ((hother k' v).mp hk').2
  · rw [hheld, ← h.exact]
    constructor
    · rintro ⟨k, hk⟩
      rcases (hother k v).mp hk with ⟨hne, hactive⟩
      refine ⟨?_, k, hactive⟩
      rintro rfl
      exact hne (h.distinct k owner v hactive howns)
    · rintro ⟨hne, k, hactive⟩
      refine ⟨k, (hother k v).mpr ⟨?_, hactive⟩⟩
      rintro rfl
      rw [howns] at hactive
      cases hactive
      exact hne rfl

omit [DecidableEq κ] in
theorem Owns.congr (h : Owns active held) (hheld : ∀ v, held' v ↔ held v) : Owns active held' :=
  ⟨h.distinct, fun v => (h.exact v).trans (hheld v).symm⟩

end Owners

/-!
### Ids

The ids of new instances are all different.
-/

section Ids

theorem pad6_inj {m n : Nat} (h : pad6 m = pad6 n) : m = n := by
  have hread : ∀ k : Nat, Nat.ofDigitChars 10 (pad6 k).toList 0 = k := by
    intro k
    unfold pad6
    rw [String.toList_append, String.toList_ofList, Nat.ofDigitChars_append,
      Nat.ofDigitChars_replicate_zero, Nat.mul_zero]
    change Nat.ofDigitChars 10 (Nat.repr k).toList 0 = k
    rw [Nat.toList_repr]
    exact Nat.ofDigitChars_ten_toDigits
  rw [← hread m, h, hread n]

/-- Instances of different numbers have different ids. -/
theorem instanceIdFor_inj {m n : Nat} (h : instanceIdFor m = instanceIdFor n) : m = n := by
  have htext := congrArg String.toList (PyStr.text.inj h)
  rw [String.toList_append, String.toList_append, List.append_cancel_left_eq] at htext
  exact pad6_inj (String.toList_inj.mp htext)

theorem instanceIdFor_not_isEmpty (n : Nat) : (instanceIdFor n).isEmpty = false := by
  have hlist : ("inst-" ++ pad6 n).toList ≠ [] := by
    rw [String.toList_append]
    exact List.append_ne_nil_of_left_ne_nil (by decide) _
  unfold instanceIdFor PyStr.isEmpty
  rw [decide_eq_false_iff_not]
  intro h
  exact hlist (congrArg String.toList (PyStr.text.inj h))

end Ids

/-!
### Operations

What an operation changes: nothing, a grant or a revocation.
-/

section Operations

variable {δ ω ι : Type} (cfg : Config δ ω ι) (server : Server δ ω ι)

/-- The table holds an instance under the id. -/
def Server.Holds (server : Server δ ω ι) (instanceId : PyStr) : Prop :=
  ∃ inst, server.instances.get? instanceId = some inst

/-- Every id in the table is of a number that has been given. -/
def Server.Numbered (server : Server δ ω ι) : Prop :=
  ∀ instanceId, server.Holds instanceId →
    ∃ n, n < server.instanceSerial ∧ instanceId = instanceIdFor n

/-- What a request does to the instance of its session and to the table: nothing, a
    new instance for a session that has none, or the end of the session's. -/
inductive OwnershipChange (active active' : Option PyStr) (server server' : Server δ ω ι) : Prop
  | kept (hactive : active' = active) (hheld : ∀ i, server'.Holds i ↔ server.Holds i)
  | started (n : Nat) (hlow : server.instanceSerial ≤ n) (hhigh : n < server'.instanceSerial)
      (hnone : active = none) (hactive : active' = some (instanceIdFor n))
      (hheld : ∀ i, server'.Holds i ↔ i = instanceIdFor n ∨ server.Holds i)
  | closed (instanceId : PyStr) (howns : active = some instanceId) (hactive : active' = none)
      (hheld : ∀ i, server'.Holds i ↔ i ≠ instanceId ∧ server.Holds i)

theorem holds_set (instances : Dict PyStr ι) (instanceId i : PyStr) (inst : ι) :
    (∃ found, (instances.set instanceId inst).get? i = some found) ↔
      i = instanceId ∨ ∃ found, instances.get? i = some found := by
  rw [Dict.get?_set]
  by_cases h : i = instanceId
  · simp [h]
  · simp [h]

theorem holds_erase (instances : Dict PyStr ι) (instanceId i : PyStr) :
    (∃ found, (instances.erase instanceId).get? i = some found) ↔
      i ≠ instanceId ∧ ∃ found, instances.get? i = some found := by
  by_cases h : i = instanceId
  · rw [h, Dict.get?_erase_self]
    simp
  · rw [Dict.get?_erase_ne _ h]
    simp [h]

variable {cfg server}

/-- A start forgets its instance when it fails, and answers with its id otherwise. -/
theorem startInstanceOf_change (hnumbered : server.Numbered) (instanceType : String)
    (instanceConfig : Fields) :
    server.instanceSerial < (startInstanceOf cfg server instanceType
      instanceConfig).1.instanceSerial ∧
    match startInstanceOf cfg server instanceType instanceConfig with
    | (server', .error _) => ∀ i, server'.Holds i ↔ server.Holds i
    | (server', .ok response) =>
        getOrNull response "instance_id" = .str (instanceIdFor server.instanceSerial) ∧
        ∀ i, server'.Holds i ↔ i = instanceIdFor server.instanceSerial ∨ server.Holds i := by
  -- The serial number of the new instance is that of none that is held.
  have hnew : ¬ server.Holds (instanceIdFor server.instanceSerial) := by
    intro hheld
    rcases hnumbered _ hheld with ⟨n, hlt, heq⟩
    have hn := instanceIdFor_inj heq
    omega
  -- A start that is abandoned takes its instance out again.
  have habandoned : ∀ (inst inst' : ι) (world : ω) (i : PyStr),
      (abandonStart cfg { server with
          world
          instanceSerial := server.instanceSerial + 1
          instances := server.instances.set (instanceIdFor server.instanceSerial) inst }
        (instanceIdFor server.instanceSerial) inst').Holds i ↔ server.Holds i := by
    intro inst inst' world i
    unfold abandonStart Server.Holds
    rw [holds_erase, holds_set]
    constructor
    · rintro ⟨hne, hid | hheld⟩
      · exact absurd hid hne
      · exact hheld
    · intro hheld
      refine ⟨?_, .inr hheld⟩
      rintro rfl
      exact hnew hheld
  unfold startInstanceOf
  dsimp only
  -- Constructing can fail, and then nothing was registered; after that starting, the reply and
  -- its digest can.
  split
  · exact ⟨Nat.lt_succ_self _, fun i => Iff.rfl⟩
  · rename_i world inst _
    split
    · exact ⟨Nat.lt_succ_self _, habandoned _ _ _⟩
    · split
      · split
        · refine ⟨Nat.lt_succ_self _, ?_, fun i => holds_set _ _ i _⟩
          unfold getOrNull setField
          rw [Dict.lookupL_setL_self]
          rfl
        · exact ⟨Nat.lt_succ_self _, habandoned _ _ _⟩
      · exact ⟨Nat.lt_succ_self _, habandoned _ _ _⟩

/-- A session gets the instance it asks for only if it is its active one. -/
theorem ownedInstance_eq_ok {ledger : SessionLedger δ} {instanceId : PyStr} {inst : ι}
    (h : ownedInstance server ledger instanceId = .ok inst) :
    ledger.activeInstanceId = some instanceId ∧ server.instances.get? instanceId = some inst := by
  unfold ownedInstance at h
  by_cases hactive : ledger.activeInstanceId = some instanceId
  · rw [if_neg (not_not_intro hactive)] at h
    cases hget : server.instances.get? instanceId with
    | none =>
        rw [hget] at h
        cases h
    | some found =>
        rw [hget] at h
        cases h
        exact ⟨hactive, rfl⟩
  · rw [if_pos hactive] at h
    cases h

variable (cfg) in
/-- A call changes its instance in place. -/
theorem dispatch_holds {instanceId : PyStr} {inst : ι}
    (hget : server.instances.get? instanceId = some inst) (call : Call) :
    (dispatch cfg server instanceId inst call).1.instanceSerial = server.instanceSerial ∧
      ∀ i, (dispatch cfg server instanceId inst call).1.Holds i ↔ server.Holds i := by
  unfold dispatch
  split
  · refine ⟨rfl, fun i => (holds_set _ _ i _).trans ⟨?_, .inr⟩⟩
    rintro (rfl | hheld)
    · exact ⟨inst, hget⟩
    · exact hheld
  · exact ⟨rfl, fun i => Iff.rfl⟩

variable (cfg) in
/-- An operation is one of the three changes, and numbers are not given again. -/
theorem executeNewRequest_change (hnumbered : server.Numbered) (ledger : SessionLedger δ)
    (request : Request) :
    server.instanceSerial ≤ (executeNewRequest cfg server ledger request).1.instanceSerial ∧
    OwnershipChange ledger.activeInstanceId
      (executeNewRequest cfg server ledger request).2.1.activeInstanceId server
      (executeNewRequest cfg server ledger request).1 := by
  unfold executeNewRequest
  split
  · rename_i instanceConfig _
    split
    · exact ⟨Nat.le_refl _, .kept rfl fun i => Iff.rfl⟩
    · rename_i hnone
      -- A type that is not known uses up a number and holds nothing.
      have hstart : server.instanceSerial <
            (handleStartInstance cfg server instanceConfig).1.instanceSerial ∧
          match handleStartInstance cfg server instanceConfig with
          | (server', .error _) => ∀ i, server'.Holds i ↔ server.Holds i
          | (server', .ok response) =>
              getOrNull response "instance_id" = .str (instanceIdFor server.instanceSerial) ∧
              ∀ i, server'.Holds i ↔ i = instanceIdFor server.instanceSerial ∨ server.Holds i := by
        unfold handleStartInstance
        dsimp only
        split
        · exact startInstanceOf_change hnumbered _ _
        · split
          · exact startInstanceOf_change hnumbered _ _
          · exact ⟨Nat.lt_succ_self _, fun i => Iff.rfl⟩
      rcases hhandle : handleStartInstance cfg server instanceConfig with ⟨server', result⟩
      rw [hhandle] at hstart
      rcases hstart with ⟨hserial, hchange⟩
      cases result with
      | error error => exact ⟨Nat.le_of_lt hserial, .kept rfl hchange⟩
      | ok response =>
          rcases hchange with ⟨hid, hheld⟩
          dsimp only
          rw [hid]
          dsimp only
          rw [instanceIdFor_not_isEmpty]
          exact ⟨Nat.le_of_lt hserial, .started _ (Nat.le_refl _) hserial hnone rfl hheld⟩
  · rename_i instanceId _
    split
    · exact ⟨Nat.le_refl _, .kept rfl fun i => Iff.rfl⟩
    · rename_i inst howned
      rcases ownedInstance_eq_ok howned with ⟨hactive, _⟩
      exact ⟨Nat.le_refl _, .closed instanceId hactive rfl fun i => holds_erase _ _ i⟩
  · rename_i instanceId call _
    split
    · exact ⟨Nat.le_refl _, .kept rfl fun i => Iff.rfl⟩
    · rename_i inst howned
      rcases ownedInstance_eq_ok howned with ⟨_, hget⟩
      rcases dispatch_holds cfg hget call with ⟨hserial, hheld⟩
      exact ⟨Nat.le_of_eq hserial.symm, .kept rfl hheld⟩

end Operations

/-!
### Requests

The owners after every request.
-/

section Requests

variable {δ ω ι : Type} [DecidableEq δ] {cfg : Config δ ω ι} {server : Server δ ω ι}

/-- The instance that a session's ledger names. -/
def activeOf (server : Server δ ω ι) (sessionId : PyStr) : Option PyStr :=
  (server.sessions.get? sessionId).bind SessionLedger.activeInstanceId

omit [DecidableEq δ] in
theorem activeOf_set (server : Server δ ω ι) (sessionId : PyStr) (ledger : SessionLedger δ) :
    activeOf { server with sessions := server.sessions.set sessionId ledger } =
      Function.update (activeOf server) sessionId ledger.activeInstanceId := by
  funext sid
  unfold activeOf
  rw [Dict.get?_set]
  by_cases h : sid = sessionId
  · rw [if_pos h, h, Function.update_self]
    rfl
  · rw [if_neg h, Function.update_of_ne h]

omit [DecidableEq δ] in
/-- The session that a request is let into owns what it owned, a new one nothing. -/
theorem getOrCreateSession_active {server' : Server δ ω ι} {sessionId : PyStr} {seq : Nat}
    {ledger : SessionLedger δ}
    (h : getOrCreateSession cfg server sessionId seq = .ok (server', ledger)) :
    server'.instances = server.instances ∧ server'.instanceSerial = server.instanceSerial ∧
      activeOf server' = activeOf server ∧
      ledger.activeInstanceId = activeOf server sessionId := by
  rcases getOrCreateSession_eq_ok cfg server server' sessionId seq ledger h with
    ⟨rfl, hget⟩ | ⟨hget, _, rfl, rfl⟩
  · refine ⟨rfl, rfl, rfl, ?_⟩
    rw [activeOf, hget]
    rfl
  · have hnone : activeOf server sessionId = none := by
      rw [activeOf, hget]
      rfl
    refine ⟨rfl, rfl, ?_, hnone.symm⟩
    rw [activeOf_set]
    have hnew : (SessionLedger.new : SessionLedger δ).activeInstanceId =
        activeOf server sessionId := hnone.symm
    rw [hnew, Function.update_eq_self]

variable (cfg server) in
/-- The session half of a request changes no ownership. -/
theorem admit_active (request : Request) :
    (admitRequest cfg server request).1.instances = server.instances ∧
    (admitRequest cfg server request).1.instanceSerial = server.instanceSerial ∧
    activeOf (admitRequest cfg server request).1 = activeOf server ∧
    ∀ ledger, (admitRequest cfg server request).2 = .execute ledger →
      ledger.activeInstanceId = activeOf server request.sessionId := by
  unfold admitRequest
  split
  · exact ⟨rfl, rfl, rfl, fun ledger h => (by cases h)⟩
  · rename_i server₁ ledger₁ hsession
    rcases getOrCreateSession_active hsession with ⟨hinstances, hserial, hactive, hledger⟩
    split
    · exact ⟨hinstances, hserial, hactive, fun ledger h => (by cases h)⟩
    · split
      · exact ⟨hinstances, hserial, hactive, fun ledger h => (by cases h)⟩
      · exact ⟨hinstances, hserial, hactive, fun ledger h => (by cases h)⟩
      · rename_i ledger₂ hbegin
        have hopened := (SessionLedger.begin_eq_ok_fresh _ _ _ _).mp hbegin
        have hsame : ledger₂.activeInstanceId = activeOf server request.sessionId := by
          rw [hopened.2, ← hledger]
        refine ⟨hinstances, hserial, ?_, fun ledger h => ?_⟩
        · rw [activeOf_set, hsame, ← hactive, Function.update_eq_self]
        · cases h
          exact hsame

/-- The table is numbered, and holds what is owned. -/
structure Ownership (server : Server δ ω ι) : Prop where
  numbered : server.Numbered
  owns : Owns (activeOf server) server.Holds

omit [DecidableEq δ] in
/-- An operation's change, written to the ledger of its session. -/
theorem Ownership.change {server' : Server δ ω ι} {active' : Option PyStr} {sessionId : PyStr}
    (h : Ownership server) (active : PyStr → Option PyStr)
    (hactive : active = Function.update (activeOf server) sessionId active')
    (hserial : server.instanceSerial ≤ server'.instanceSerial)
    (hchange : OwnershipChange (activeOf server sessionId) active' server server') :
    server'.Numbered ∧ Owns active server'.Holds := by
  have hkept : ∀ i, server.Holds i → ∃ n, n < server'.instanceSerial ∧ i = instanceIdFor n := by
    intro i hheld
    rcases h.numbered i hheld with ⟨n, hlt, heq⟩
    exact ⟨n, Nat.lt_of_lt_of_le hlt hserial, heq⟩
  cases hchange with
  | kept hsame hheld =>
      refine ⟨fun i hi => hkept i ((hheld i).mp hi), ?_⟩
      rw [hactive, hsame, Function.update_eq_self]
      exact h.owns.congr hheld
  | started n hlow hhigh hnone hnew hheld =>
      refine ⟨fun i hi => ?_, ?_⟩
      · rcases (hheld i).mp hi with rfl | hi
        · exact ⟨n, hhigh, rfl⟩
        · exact hkept i hi
      · rw [hactive, hnew]
        refine h.owns.grant hnone (fun hold => ?_) hheld
        rcases h.numbered _ hold with ⟨m, hlt, heq⟩
        have hm := instanceIdFor_inj heq
        omega
  | closed instanceId howns hnone hheld =>
      refine ⟨fun i hi => hkept i ((hheld i).mp hi).2, ?_⟩
      rw [hactive, hnone]
      exact h.owns.revoke howns hheld

/-- One request keeps the agreement. -/
theorem ownership_step (h : Ownership server) (payload : Json) :
    Ownership (handleRequest cfg server payload).1 := by
  unfold handleRequest
  split
  · rename_i fields
    split
    · exact h
    · rename_i request _
      -- Admitting a request touches no instance and no ownership.
      have hadmits := admit_active cfg server request
      generalize admitRequest cfg server request = admitted at hadmits
      rcases admitted with ⟨server₁, admission⟩
      rcases hadmits with ⟨hinstances, hserial, hactive, hledger⟩
      dsimp only at hinstances hserial hactive hledger
      have hadmitted : Ownership server₁ := by
        constructor
        · unfold Server.Numbered Server.Holds
          rw [hinstances, hserial]
          exact h.numbered
        · unfold Server.Holds
          rw [hinstances, hactive]
          exact h.owns
      cases admission with
      | rejected rejection => exact hadmitted
      | raised error => exact hadmitted
      | replay response => exact hadmitted
      | execute ledger =>
          have howner := hledger ledger rfl
          -- The ledger that is handed to the operation has the active instance of the session.
          rw [← hactive] at howner
          rcases executeNewRequest_change cfg hadmitted.numbered ledger request with
            ⟨hserial', hchange⟩
          have hsessions := executeNewRequest_sessions cfg server₁ ledger request
          dsimp only
          generalize executeNewRequest cfg server₁ ledger request = executed at *
          rcases executed with ⟨server₂, ledger₂, result⟩
          dsimp only at hserial' hchange hsessions ⊢
          rw [howner] at hchange
          -- What the operation holds afterwards is what the ledger says afterwards.
          have hfinal := hadmitted.change (activeOf { server₂ with
              sessions := server₂.sessions.set request.sessionId
                (ledger₂.complete (terminalResponse cfg fields result)) }) ?_ hserial' hchange
          · exact ⟨hfinal.1, hfinal.2⟩
          · rw [activeOf_set]
            have hbefore : activeOf server₂ = activeOf server₁ := by
              funext sid
              rw [activeOf, hsessions]
              rfl
            rw [hbefore]
            rfl
  · exact h

/-- The agreement holds in every run. -/
theorem ownership_final (cfg : Config δ ω ι) (world : ω) (payloads : List Json) :
    Ownership (Run.final (handleRequest cfg) (Server.init world) payloads) := by
  have hinit : Ownership (Server.init world : Server δ ω ι) := by
    refine ⟨fun i hi => ?_, ⟨fun k k' v hk => ?_, fun v => ⟨?_, ?_⟩⟩⟩
    · rcases hi with ⟨inst, hinst⟩
      cases hinst
    · cases hk
    · rintro ⟨k, hk⟩
      cases hk
    · rintro ⟨inst, hinst⟩
      cases hinst
  exact Run.invariant (handleRequest cfg) (I := Ownership)
    (fun s payload hs => ownership_step hs payload) (Server.init world) payloads hinit

end Requests

/-- For every sequence of requests over any number of sessions, and whatever the
    instances do when they are constructed, started, called and closed: every
    instance that a ledger names is named by no other, and the instances that are
    named are the keys of the table. -/
theorem ownership_exact {δ ω ι : Type} [DecidableEq δ] (cfg : Config δ ω ι) (world : ω)
    (payloads : List Json) :
    let server := Run.final (handleRequest cfg) (Server.init world) payloads
    (∀ sid sid' ledger ledger' instanceId, server.sessions.get? sid = some ledger →
      server.sessions.get? sid' = some ledger' → ledger.activeInstanceId = some instanceId →
      ledger'.activeInstanceId = some instanceId → sid = sid') ∧
    ∀ instanceId, instanceId ∈ server.instances.keys ↔
      ∃ sid ledger, server.sessions.get? sid = some ledger ∧
        ledger.activeInstanceId = some instanceId := by
  intro server
  have hfinal : Ownership server := ownership_final cfg world payloads
  have hactive : ∀ sid instanceId, activeOf server sid = some instanceId ↔
      ∃ ledger, server.sessions.get? sid = some ledger ∧
        ledger.activeInstanceId = some instanceId := fun sid instanceId =>
    Option.bind_eq_some_iff
  refine ⟨fun sid sid' ledger ledger' instanceId hget hget' hnames hnames' => ?_,
    fun instanceId => ?_⟩
  · exact hfinal.owns.distinct sid sid' instanceId ((hactive sid instanceId).mpr ⟨_, hget, hnames⟩)
      ((hactive sid' instanceId).mpr ⟨_, hget', hnames'⟩)
  · rw [Dict.mem_keys_iff]
    exact (hfinal.owns.exact instanceId).symm.trans
      (exists_congr fun sid => hactive sid instanceId)

end Api

end STS2RL
