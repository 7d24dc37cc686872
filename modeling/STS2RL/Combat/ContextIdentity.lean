import STS2RL.Core.JsonSort
import STS2RL.Combat.WorkerRuntime
import STS2RL.Api.Validation

/-!
# Contexts in Another Process

A context is named by a digest of its root, its prefix and its hypothesis. To be
sent to a worker process it is given another root: a typed snapshot and a snapshot
of the emulator become the text they are serialized to, and every other root goes
as it is. The worker computes the name of what it was sent, and leases the pending
decision it reaches under that name.

The names agree. A root is digested by its canonical text, without the members
that differ between two captures. For a typed snapshot the text that is sent still
has these members, in the order of their names; reading it, dropping them and
writing it again gives the text the snapshot itself has (`canonical_again`). A
snapshot of the emulator is digested through the very text that is sent.

The worker's answer is put back under the root of the caller. So the name of a
pending context is the same before the answer was changed, where the lease was
granted, and after, where the lease is looked up.

An object that is none of these roots cannot be restored by a worker, and is not
modelled. A typed snapshot is flattened from decoded text, and holds what decoding
gives (`isDecoded`).

## Main definitions

* `Captured`: The snapshots a context may be rooted at.
* `CaptureEnv.identityPayload`, `CaptureEnv.ipcPayload`: What a root is digested by,
  and what is sent of it.
* `CaptureEnv.contextId`: `derive_context_id`.
* `CaptureEnv.workItemForIpc`: The item a worker is sent.
* `restoreResultForCallerWorkItem`: The answer, as the caller's own.

## Theorems

* `identityPayload_ipcPayload`: A root is digested alike on both sides.
* `contextId_workItemForIpc`: A context has one name on both sides.
* `context_id_survives_ipc`: The law, with the lease on a pending decision.
-/

namespace STS2RL

namespace Combat

open Api (Fields pyRepr)

/-- A typed snapshot, as `dataclasses.asdict` flattens it. -/
structure FlatSnapshot where
  fields : Fields
  decoded : (Json.obj fields).isDecoded = true

/-- A captured snapshot: a text, a dictionary, a typed snapshot, or an object of the
    emulator's own type. -/
inductive Captured (ω : Type) where
  | jsonText (text : String)
  | jsonDict (fields : Fields)
  | dataclass (snapshot : FlatSnapshot)
  | clr (snapshot : ω)

section Canonical

/-- `_VOLATILE_TOP_LEVEL_METADATA_KEYS`. -/
def volatileTopLevelMetadataKeys : List PyStr := ["SnapshotId", "CapturedAtUtc"]

/-- The key is of metadata that differ between two captures. -/
def isVolatile (key : PyStr) : Bool := key ∈ volatileTopLevelMetadataKeys

/-- `canonical_json`. -/
def canonicalJson (snapshot : Json) (excludeVolatile : Bool) : List Char :=
  Json.dumps (if excludeVolatile then snapshot.dropKeys isVolatile else snapshot).sortKeys

/-- `json.dumps(payload, sort_keys=True)`. -/
def dumpsSorted (payload : Json) : List Char := Json.dumps payload.sortKeys

/-- The text that is sent of a snapshot is digested like the snapshot. -/
theorem canonicalJson_loads {snapshot : Json} (h : snapshot.isDecoded = true) :
    (Json.loads (canonicalJson snapshot false)).map (canonicalJson · true) =
      some (canonicalJson snapshot true) :=
  Json.canonical_again isVolatile h

end Canonical

/-- The hash, and the serializer of the emulator. -/
structure CaptureEnv (ω : Type) where
  sha256Hex : String → String
  serialize : ω → String

namespace CaptureEnv

variable {ω β : Type} (env : CaptureEnv ω)

/-- `_root_digest`. -/
def rootDigest (value : String) : String :=
  String.ofList ((env.sha256Hex (String.ofList (dumpsSorted (.str value)))).toList.take 64)

/-- `_json_digest`. -/
def jsonDigest (payload : Json) : String :=
  String.ofList ((env.sha256Hex (String.ofList (dumpsSorted payload))).toList.take 16)

/-- `identity_payload`, or that the serialized snapshot is no JSON text. -/
def identityPayload : SearchRoot (Captured ω) → Option String
  | .combatStart root =>
      some (String.ofList (dumpsSorted (.obj [jsonMember "scenario_spec" root.scenarioSpec])))
  | .roomEntry root =>
      some (String.ofList (dumpsSorted (.obj [jsonMember "map_snapshot" (.str root.mapSnapshot),
        jsonMember "room_id" (.int root.roomId)])))
  | .snapshot (.jsonText text) =>
      match Json.loads text.toList with
      | some value => some (String.ofList (canonicalJson value true))
      | none => some (env.rootDigest (pyRepr (.text text)))
  | .snapshot (.jsonDict fields) => some (String.ofList (canonicalJson (.obj fields) true))
  | .snapshot (.dataclass snapshot) =>
      some (String.ofList (canonicalJson (.obj snapshot.fields) true))
  | .snapshot (.clr snapshot) =>
      (Json.loads (env.serialize snapshot).toList).map fun value =>
        String.ofList (canonicalJson value true)

/-- `ipc_payload`. -/
def ipcPayload : SearchRoot (Captured ω) → SearchRoot (Captured ω)
  | .combatStart root => .combatStart root
  | .roomEntry root => .roomEntry root
  | .snapshot (.jsonText text) => .snapshot (.jsonText text)
  | .snapshot (.jsonDict fields) => .snapshot (.jsonDict fields)
  | .snapshot (.dataclass snapshot) =>
      .snapshot (.jsonText (String.ofList (canonicalJson (.obj snapshot.fields) false)))
  | .snapshot (.clr snapshot) => .snapshot (.jsonText (env.serialize snapshot))

/-- What the digest of a context is taken of. -/
def contextContent (rootPayload : String) (context : DecisionContext (Captured ω) β) : Json :=
  .obj [jsonMember "root_snapshot_sha256" (.str (env.sha256Hex rootPayload)),
    jsonMember "replay_prefix" (.list (context.replayPrefix.map ReplayPrefixEntry.identity)),
    jsonMember "search_hypothesis_id" (textOrNull context.searchHypothesisId)]

/-- `derive_context_id`, or that the root cannot be digested. -/
def contextId (context : DecisionContext (Captured ω) β) : Option String :=
  (env.identityPayload context.rootSnapshot).map fun rootPayload =>
    env.jsonDigest (env.contextContent rootPayload context)

/-- `_work_item_for_ipc`. -/
def workItemForIpc (item : WorkItem (Captured ω) β) : WorkItem (Captured ω) β :=
  { item with
    decisionContext := { item.decisionContext with
      rootSnapshot := env.ipcPayload item.decisionContext.rootSnapshot } }

/-- The key a worker leases the pending decision of an item under. -/
def pendingLeaseKey (item : WorkItem (Captured ω) β) (nextState : BattleState β)
    (signature : DecisionSignature) : Option (String × Option String) :=
  let context := pendingContext item nextState signature
  (env.contextId context).map fun id => (id, context.searchHypothesisId)

end CaptureEnv

/-- `restore_result_for_caller_work_item`: a pending context is put back under the root
    of the caller. -/
def restoreResultForCallerWorkItem {κ β : Type} (item : WorkItem κ β) (result : BranchResult κ β) :
    BranchResult κ β :=
  { result with
    pendingDecisionContext := result.pendingDecisionContext.map fun context =>
      { context with rootSnapshot := item.decisionContext.rootSnapshot }
    success_boundary := fun hstatus => by
      rcases result.success_boundary hstatus with
        ⟨signature, hsignature, hstable, hterminal, hpending⟩
      refine ⟨signature, hsignature, hstable, hterminal, fun hboundary => ?_⟩
      rcases hpending hboundary with ⟨hsnapshot, hresult, hcontext, hlease⟩
      exact ⟨hsnapshot, hresult, by rw [Option.isSome_map]; exact hcontext, hlease⟩ }

namespace CaptureEnv

variable {ω β : Type} (env : CaptureEnv ω)

/-- A root that the caller can digest is digested alike by a worker. -/
theorem identityPayload_ipcPayload {root : SearchRoot (Captured ω)} {payload : String}
    (h : env.identityPayload root = some payload) :
    env.identityPayload (env.ipcPayload root) = some payload := by
  cases root with
  | combatStart root => exact h
  | roomEntry root => exact h
  | snapshot captured =>
      cases captured with
      | jsonText text => exact h
      | jsonDict fields => exact h
      | dataclass snapshot =>
          rcases Option.map_eq_some_iff.mp (canonicalJson_loads snapshot.decoded) with
            ⟨value, hread, hcanonical⟩
          simp only [ipcPayload, identityPayload, String.toList_ofList, hread, hcanonical]
          exact h
      | clr snapshot =>
          rcases Option.map_eq_some_iff.mp h with ⟨value, hread, rfl⟩
          simp only [ipcPayload, identityPayload, hread]

/-- A context has one name on both sides. -/
theorem contextId_workItemForIpc {item : WorkItem (Captured ω) β} {id : String}
    (h : env.contextId item.decisionContext = some id) :
    env.contextId (env.workItemForIpc item).decisionContext = some id := by
  rcases Option.map_eq_some_iff.mp h with ⟨payload, hpayload, rfl⟩
  have hipc := env.identityPayload_ipcPayload hpayload
  exact Option.map_eq_some_iff.mpr ⟨payload, hipc, rfl⟩

/-- Put back under the root of the caller, the pending context of the item that was sent
    is that of the caller's own item. -/
theorem pendingContext_restored (item : WorkItem (Captured ω) β) (nextState : BattleState β)
    (signature : DecisionSignature) :
    { pendingContext (env.workItemForIpc item) nextState signature with
      rootSnapshot := item.decisionContext.rootSnapshot } =
    pendingContext item nextState signature := rfl

/-- A name needs no more than a root that can be digested. -/
theorem contextId_isSome {context context' : DecisionContext (Captured ω) β}
    (hroot : context'.rootSnapshot = context.rootSnapshot) :
    (env.contextId context').isSome = (env.contextId context).isSome := by
  unfold contextId
  rw [hroot, Option.isSome_map, Option.isSome_map]

/-- The value that the canonical text of a snapshot is written of. -/
def identityValue : Captured ω → Option Json
  | .jsonText text => (Json.loads text.toList).map (Json.dropKeys isVolatile)
  | .jsonDict fields => some ((Json.obj fields).dropKeys isVolatile)
  | .dataclass snapshot => some ((Json.obj snapshot.fields).dropKeys isVolatile)
  | .clr snapshot => (Json.loads (env.serialize snapshot).toList).map (Json.dropKeys isVolatile)

/-- Hashing a value by its canonical text. -/
def digests : Digests (Captured ω) where
  canonicalSnapshot captured := (env.identityValue captured).getD .null
  sha256Hex payload := env.sha256Hex (String.ofList (dumpsSorted payload))

/-- Where the root is a text of JSON, the name is the one derived from the content. -/
theorem contextId_eq_deriveContextId {context : DecisionContext (Captured ω) β}
    (h : ∀ captured, context.rootSnapshot = .snapshot captured →
      (env.identityValue captured).isSome) :
    env.contextId context = some (deriveContextId env.digests context) := by
  -- What the worker digests is what the coordinator digests; for a snapshot both read the same
  -- value, whatever it is captured as.
  have hpayload : env.identityPayload context.rootSnapshot = some (String.ofList (dumpsSorted
      (context.rootSnapshot.identityPayload env.digests.canonicalSnapshot))) := by
    cases hroot : context.rootSnapshot with
    | combatStart root => rfl
    | roomEntry root => rfl
    | snapshot captured =>
        rcases Option.isSome_iff_exists.mp (h captured hroot) with ⟨value, hvalue⟩
        have hcanonical : (SearchRoot.snapshot captured).identityPayload
            env.digests.canonicalSnapshot = value := by
          simp only [SearchRoot.identityPayload, digests, hvalue, Option.getD_some]
        rw [hcanonical]
        cases captured with
        | jsonText text =>
            rcases Option.map_eq_some_iff.mp hvalue with ⟨read, hread, rfl⟩
            simp only [identityPayload, hread]
            rfl
        | jsonDict fields =>
            cases hvalue
            rfl
        | dataclass snapshot =>
            cases hvalue
            rfl
        | clr snapshot =>
            rcases Option.map_eq_some_iff.mp hvalue with ⟨read, hread, rfl⟩
            simp only [identityPayload, hread, Option.map_some]
            rfl
  unfold contextId
  rw [hpayload]
  rfl

/-- The worker's lease has the key. -/
theorem establishedLease_key (workerId workerGeneration stateEpoch : Nat)
    {item : WorkItem (Captured ω) β} (nextState : BattleState β) (signature : DecisionSignature)
    (h : ∀ captured, item.decisionContext.rootSnapshot = .snapshot captured →
      (env.identityValue captured).isSome) :
    env.pendingLeaseKey item nextState signature =
      some (establishedLease env.digests workerId workerGeneration stateEpoch item nextState
        signature).key := by
  have hname : env.contextId (pendingContext item nextState signature) =
      some (deriveContextId env.digests (pendingContext item nextState signature)) :=
    env.contextId_eq_deriveContextId h
  unfold pendingLeaseKey
  simp only [hname, Option.map_some]
  rfl

/-- For every context, whatever its root, prefix and hypothesis: if the caller can name
    it, a worker gives the item it is sent the same name; and whatever pending decision
    the worker reaches with it, the context that is put back under the caller's root has
    a name, and the key made of it and the hypothesis is the one the worker leased the
    decision under. -/
theorem context_id_survives_ipc (item : WorkItem (Captured ω) β) (id : String)
    (h : env.contextId item.decisionContext = some id) :
    env.contextId (env.workItemForIpc item).decisionContext = some id ∧
    (env.workItemForIpc item).searchHypothesisId = item.searchHypothesisId ∧
    ∀ (nextState : BattleState β) (signature : DecisionSignature)
      (result : BranchResult (Captured ω) β),
      result.pendingDecisionContext =
          some (pendingContext (env.workItemForIpc item) nextState signature) →
      ∃ restored id',
        (restoreResultForCallerWorkItem item result).pendingDecisionContext = some restored ∧
        env.contextId restored = some id' ∧
        env.pendingLeaseKey (env.workItemForIpc item) nextState signature =
          some (id', restored.searchHypothesisId) := by
  refine ⟨env.contextId_workItemForIpc h, rfl, fun nextState signature result hresult => ?_⟩
  have hrestored : (restoreResultForCallerWorkItem item result).pendingDecisionContext =
      some (pendingContext item nextState signature) := by
    simp only [restoreResultForCallerWorkItem, hresult, Option.map_some,
      env.pendingContext_restored]
  -- The pending context has the root of the item, so it has a name if the item's has.
  have hsome : (env.contextId (pendingContext item nextState signature)).isSome := by
    have hsame : (env.contextId (pendingContext item nextState signature)).isSome =
        (env.contextId item.decisionContext).isSome := env.contextId_isSome rfl
    rw [hsame, h]
    rfl
  rcases Option.isSome_iff_exists.mp hsome with ⟨id', hid'⟩
  refine ⟨_, id', hrestored, hid', ?_⟩
  rcases Option.map_eq_some_iff.mp hid' with ⟨payload, hpayload, rfl⟩
  have hipc := env.identityPayload_ipcPayload hpayload
  have hworker : env.contextId (pendingContext (env.workItemForIpc item) nextState signature) =
      some (env.jsonDigest
        (env.contextContent payload (pendingContext item nextState signature))) :=
    Option.map_eq_some_iff.mpr ⟨payload, hipc, rfl⟩
  unfold pendingLeaseKey
  simp only [hworker, Option.map_some]
  rfl

/-- A hash that hides nothing, and a serializer with nothing to serialize. -/
private def plainCapture : CaptureEnv Empty := ⟨id, nofun⟩

/-- A signature at a stable board. -/
private def stableSignature : DecisionSignature :=
  ⟨none, 0, none, ⟨"card", "STRIKE"⟩, 0, "STRIKE", none, none, .stable, none, none, none,
    stable_pendingOnly⟩

/-- An item rooted at a typed snapshot, with a member that is not digested. -/
private def snapshotItem : WorkItem (Captured Empty) Unit where
  workId := "work"
  decisionContext :=
    { rootSnapshot := .snapshot (.dataclass
        ⟨[jsonMember "Turn" (.int 3), jsonMember "SnapshotId" (.str "s-1")], by decide⟩)
      replayPrefix := []
      planPath := []
      currentDecisionResult := ⟨(), false, none, none, none⟩
      currentContextSignature := stableSignature }
  candidate := { currentContextSignature := stableSignature, semanticAction := ⟨"card", "STRIKE"⟩ }
  contextId := "context"
  workKind := .continuation
  arrival := by decide

/-- The snapshot is sent as a text, and named alike. -/
theorem context_id_survives_ipc_snapshot :
    ∃ id, plainCapture.contextId snapshotItem.decisionContext = some id ∧
      plainCapture.contextId (plainCapture.workItemForIpc snapshotItem).decisionContext = some id :=
  ⟨_, rfl, (plainCapture.context_id_survives_ipc snapshotItem _ rfl).1⟩

end CaptureEnv

end Combat

end STS2RL
