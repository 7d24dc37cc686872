import STS2RL.Combat.DecisionContext
import STS2RL.Core.Distinct
import STS2RL.Core.Except
import Mathlib.Data.Rat.Defs
import Mathlib.Data.List.Nodup
import Mathlib.Data.List.ProdSigma
import Mathlib.Tactic.Tauto
import Mathlib.Data.Set.Function

/-!
# Work Items

One branch candidate to execute, and what it is identified by.

A work item pairs a candidate with the context it is stepped from. Its id is a
digest of its content: the context, the kind of work, the action with its
targets, and the score. So the id is a name for what the item does, not for the
item itself, and a list with one candidate twice holds one id twice.

The digest is a parameter (`Digests`): whether two contents collide is the hash
function's business. A float is digested by its text; here a score is a
rational, and its numerator and denominator stand for that text.

## Main definitions

* `Digests`: The hash, and the canonical content of a snapshot.
* `PipelineCandidateRef`: A candidate that has not been executed.
* `WorkItem`, `fromCandidateRef`: A candidate at a context.
* `plainWorkItems`, `hypothesisWorkItems`: The two batches of a decision.

## Theorems

* `workIdentity_inj`: What two items with one digested content agree on.
* `fromCandidateRef_eq_ok`: When an item is built, and which one.
* `workIds_product_nodup_iff`: When the cells of a grid have distinct ids.
* `plainWorkItems_nodup_iff`, `hypothesisWorkItems_nodup_iff`: When the items of the two
  batches do.
-/

namespace STS2RL

namespace Combat

/-- The hash of a canonical text, and the content a snapshot is hashed by. -/
structure Digests (κ : Type) where
  canonicalSnapshot : κ → Json
  sha256Hex : Json → String

variable {κ β : Type}

/-- `_json_digest`. -/
def Digests.jsonDigest (digests : Digests κ) (payload : Json) : String :=
  String.ofList ((digests.sha256Hex payload).toList.take 16)

/-- A member of a record. -/
def jsonMember (name : String) (value : Json) : PyStr × Json := (.text name, value)

/-- A text or `None`. -/
def textOrNull : Option String → Json
  | none => .null
  | some s => .str s

/-- A number or `None`. -/
def intOrNull : Option Int → Json
  | none => .null
  | some z => .int z

/-- `asdict` of an action. -/
def SemanticAction.asdict (action : SemanticAction) : Json :=
  .obj [jsonMember "action_type" (.str action.actionType),
    jsonMember "semantic_key" (.str action.semanticKey)]

/-- A boundary's value. -/
def Boundary.text : Boundary → String
  | stable => "stable"
  | pending => "pending"
  | terminal => "terminal"
  | fault => "fault"

/-- A scope's value. -/
def ChoiceScope.text : ChoiceScope → String
  | topLevel => "TopLevel"
  | actionContinuation => "ActionContinuation"

/-- The counted candidates or `None`. -/
def candidateCountsJson : Option (List CandidateCount) → Json
  | none => .null
  | some counts =>
      .list (counts.map fun count =>
        .list [.list [.str count.1.1, .str count.1.2], .int count.2])

/-- `asdict` of a signature. -/
def DecisionSignature.asdict (signature : DecisionSignature) : Json :=
  .obj [jsonMember "combat_session_id" (textOrNull signature.combatSessionId),
    jsonMember "step_index" (.int signature.stepIndex),
    jsonMember "continuation_step_index" (intOrNull signature.continuationStepIndex),
    jsonMember "semantic_action" signature.semanticAction.asdict,
    jsonMember "resolved_action_id" (.int signature.resolvedActionId),
    jsonMember "resolved_semantic_key" (.str signature.resolvedSemanticKey),
    jsonMember "resolved_target_index" (intOrNull signature.resolvedTargetIndex),
    jsonMember "resolved_target_slot_index" (intOrNull signature.resolvedTargetSlotIndex),
    jsonMember "boundary" (.str signature.boundary.text),
    jsonMember "choice_scope" (textOrNull (signature.choiceScope.map ChoiceScope.text)),
    jsonMember "choice_kind" (textOrNull signature.choiceKind),
    jsonMember "candidate_semantic_keys" (candidateCountsJson signature.candidateSemanticKeys)]

/-- The part of a replay entry that identifies a context. -/
def ReplayPrefixEntry.identity (entry : ReplayPrefixEntry) : Json :=
  .obj [jsonMember "semantic_action" entry.semanticAction.asdict,
    jsonMember "expected_signature" entry.expectedSignature.asdict,
    jsonMember "target_index" (intOrNull entry.targetIndex),
    jsonMember "target_enemy_index" (intOrNull entry.targetEnemyIndex)]

/-- `derive_context_id`. -/
def deriveContextId (digests : Digests κ) (context : DecisionContext κ β) : String :=
  digests.jsonDigest
    (.obj [jsonMember "root_snapshot_sha256"
        (.str (digests.sha256Hex
          (context.rootSnapshot.identityPayload digests.canonicalSnapshot))),
      jsonMember "replay_prefix" (.list (context.replayPrefix.map ReplayPrefixEntry.identity)),
      jsonMember "search_hypothesis_id" (textOrNull context.searchHypothesisId)])

/-- `decision_result_digest`. -/
def decisionResultDigest (digests : Digests κ) (signature : DecisionSignature) : String :=
  digests.jsonDigest signature.asdict

/-- A candidate that has not been executed. -/
structure PipelineCandidateRef where
  currentContextSignature : DecisionSignature
  semanticAction : SemanticAction
  targetIndex : Option Int := none
  targetEnemyIndex : Option Int := none
  score : ℚ := 0
  choiceKind : String := ""
  choiceScope : String := ""
  deriving DecidableEq

/-- What an item is sent as. -/
inductive WorkKind where
  | continuation
  | subBranch
  deriving DecidableEq, Repr

/-- A kind's value. -/
def WorkKind.text : WorkKind → String
  | continuation => "continuation"
  | subBranch => "sub_branch"

/-- The content a work item is named after. -/
def workIdentity (contextId : String) (workKind : WorkKind) (candidate : PipelineCandidateRef) :
    Json :=
  .obj [jsonMember "context_id" (.str contextId),
    jsonMember "work_kind" (.str workKind.text),
    jsonMember "semantic_action" candidate.semanticAction.asdict,
    jsonMember "target_index" (intOrNull candidate.targetIndex),
    jsonMember "target_enemy_index" (intOrNull candidate.targetEnemyIndex),
    jsonMember "score" (.list [.int candidate.score.num, .int candidate.score.den])]

theorem intOrNull_inj {a b : Option Int} : intOrNull a = intOrNull b ↔ a = b := by
  cases a <;> cases b <;> simp [intOrNull]

theorem SemanticAction.asdict_inj {a b : SemanticAction} : a.asdict = b.asdict ↔ a = b := by
  obtain ⟨type, key⟩ := a
  obtain ⟨type', key'⟩ := b
  simp [SemanticAction.asdict, jsonMember]

theorem WorkKind.text_inj {a b : WorkKind} : a.text = b.text ↔ a = b := by
  cases a <;> cases b <;> decide

/-- The part of a candidate that names its work item. -/
def PipelineCandidateRef.identity (candidate : PipelineCandidateRef) :
    SemanticAction × Option Int × Option Int × ℚ :=
  (candidate.semanticAction, candidate.targetIndex, candidate.targetEnemyIndex, candidate.score)

/-- What two items with one digested content agree on. -/
theorem workIdentity_inj (contextId contextId' : String) (kind kind' : WorkKind)
    (candidate candidate' : PipelineCandidateRef) :
    workIdentity contextId kind candidate = workIdentity contextId' kind' candidate' ↔
      contextId = contextId' ∧ kind = kind' ∧ candidate.identity = candidate'.identity := by
  have hscore : (candidate.score.num = candidate'.score.num ∧
      (candidate.score.den : Int) = candidate'.score.den) ↔ candidate.score = candidate'.score :=
    ⟨fun h => Rat.ext h.1 (by omega), fun h => by rw [h]; exact ⟨rfl, rfl⟩⟩
  simp only [workIdentity, PipelineCandidateRef.identity, jsonMember, Json.obj.injEq,
    List.cons.injEq, Prod.mk.injEq, true_and, and_true, Json.str.injEq, PyStr.text.injEq,
    WorkKind.text_inj, SemanticAction.asdict_inj, intOrNull_inj, Json.list.injEq,
    Json.int.injEq, hscore]

/-- One branch candidate to execute. The candidate belongs to the context it is
    stepped from. -/
structure WorkItem (κ β : Type) where
  workId : String
  decisionContext : DecisionContext κ β
  candidate : PipelineCandidateRef
  contextId : String
  workKind : WorkKind
  arrival : candidate.currentContextSignature.matchesForReplay
    decisionContext.currentContextSignature = true

/-- `search_hypothesis_id`. -/
def WorkItem.searchHypothesisId (item : WorkItem κ β) : Option String :=
  item.decisionContext.searchHypothesisId

/-- `WorkItem.from_candidate_ref`. -/
def WorkItem.fromCandidateRef (digests : Digests κ) (context : DecisionContext κ β)
    (candidate : PipelineCandidateRef) (workKind : WorkKind) (contextId : Option String) :
    Except PyException (WorkItem κ β) :=
  let resolvedContextId := contextId.getD (deriveContextId digests context)
  if arrival : candidate.currentContextSignature.matchesForReplay
      context.currentContextSignature = true then
    .ok { workId := digests.jsonDigest (workIdentity resolvedContextId workKind candidate)
          decisionContext := context
          candidate
          contextId := resolvedContextId
          workKind
          arrival }
  else
    .error (.valueError "candidate current_context_signature does not match its DecisionContext")

/-- When an item is built, and which one. -/
theorem fromCandidateRef_eq_ok (digests : Digests κ) (context : DecisionContext κ β)
    (candidate : PipelineCandidateRef) (workKind : WorkKind) (contextId : Option String)
    (item : WorkItem κ β)
    (h : WorkItem.fromCandidateRef digests context candidate workKind contextId = .ok item) :
    item.decisionContext = context ∧ item.candidate = candidate ∧ item.workKind = workKind ∧
      item.contextId = contextId.getD (deriveContextId digests context) ∧
      item.workId = digests.jsonDigest (workIdentity item.contextId workKind candidate) := by
  unfold WorkItem.fromCandidateRef at h
  dsimp only at h
  split at h
  · cases h
    exact ⟨rfl, rfl, rfl, rfl, rfl⟩
  · cases h

/-- The kind of the candidate at a position of a batch: the first is the one the
    search would continue with. -/
def workKindAt (index : Nat) : WorkKind :=
  if index = 0 then .continuation else .subBranch

/-- `_plain_work_items`. -/
def plainWorkItems (digests : Digests κ) (context : DecisionContext κ β)
    (candidates : List PipelineCandidateRef) : Except PyException (List (WorkItem κ β)) :=
  candidates.zipIdx.mapM fun candidate =>
    WorkItem.fromCandidateRef digests context candidate.1 (workKindAt candidate.2)
      (some (deriveContextId digests context))

/-- `_hypothesis_work_items`, given the context under each hypothesis: every
    candidate under every hypothesis, candidate by candidate. -/
def hypothesisWorkItems (digests : Digests κ) (contexts : List (DecisionContext κ β))
    (candidates : List PipelineCandidateRef) : Except PyException (List (WorkItem κ β)) :=
  (candidates.zipIdx.flatMap fun candidate => contexts.map fun context => (candidate, context)).mapM
    fun cell => WorkItem.fromCandidateRef digests cell.2 cell.1.1 (workKindAt cell.1.2) none

/-- What a cell of a batch is named after, apart from its context. -/
def cellIdentity (cell : PipelineCandidateRef × Nat) :
    WorkKind × SemanticAction × Option Int × Option Int × ℚ :=
  (workKindAt cell.2, cell.1.identity)

/-- The first candidate has a kind of its own. The others are told apart by what they do. -/
theorem cellIdentity_nodup_iff (candidates : List PipelineCandidateRef) :
    (candidates.zipIdx.map cellIdentity).Nodup ↔
      ((candidates.drop 1).map (·.identity)).Nodup := by
  cases candidates with
  | nil => simp
  | cons first rest =>
      rw [List.zipIdx_cons, List.map_cons, List.nodup_cons, List.drop_one, List.tail_cons]
      -- Every candidate after the first is a sub-branch, and the first is not.
      have hkind : ∀ cell ∈ rest.zipIdx (0 + 1),
          cellIdentity cell = (.subBranch, cell.1.identity) := by
        intro cell hmem
        have hindex := List.le_snd_of_mem_zipIdx hmem
        rw [cellIdentity, workKindAt, if_neg (by omega)]
      have hrest : (rest.zipIdx (0 + 1)).map cellIdentity =
          (rest.map (·.identity)).map (Prod.mk .subBranch) := by
        rw [List.map_congr_left hkind, List.map_map]
        conv_rhs => rw [← List.zipIdx_map_fst (0 + 1) rest, List.map_map]
        rfl
      rw [hrest, List.nodup_map_iff (Prod.mk_right_injective _)]
      refine and_iff_right fun hmem => ?_
      obtain ⟨identity, -, heq⟩ := List.mem_map.mp hmem
      cases congrArg Prod.fst heq

/-- The ids of the items of some cells. -/
def workIds (digests : Digests κ) (cells : List ((PipelineCandidateRef × Nat) × String)) :
    List String :=
  cells.map fun cell =>
    digests.jsonDigest (workIdentity cell.2 (workKindAt cell.1.2) cell.1.1)

/-- Where the digest tells contents apart, ids are told apart by context and cell. -/
theorem workIds_nodup_iff (digests : Digests κ)
    (cells : List ((PipelineCandidateRef × Nat) × String))
    (hdigest : Set.InjOn digests.jsonDigest {payload | ∃ cell ∈ cells,
      payload = workIdentity cell.2 (workKindAt cell.1.2) cell.1.1}) :
    (workIds digests cells).Nodup ↔
      (cells.map (Prod.map cellIdentity id)).Nodup := by
  rw [workIds, List.Nodup, List.Nodup, List.pairwise_map, List.pairwise_map]
  refine List.Pairwise.iff_of_mem fun {a b} ha hb => not_congr ?_
  rw [hdigest.eq_iff ⟨a, ha, rfl⟩ ⟨b, hb, rfl⟩, workIdentity_inj]
  simp only [Prod.map, cellIdentity, id, Prod.mk.injEq]
  tauto

/-- The ids of plain items are those of their candidates. -/
theorem plainWorkItems_workIds (digests : Digests κ) (context : DecisionContext κ β)
    (candidates : List PipelineCandidateRef) (items : List (WorkItem κ β))
    (h : plainWorkItems digests context candidates = .ok items) :
    items.map (·.workId) =
      workIds digests (candidates.zipIdx ×ˢ [deriveContextId digests context]) := by
  have hcells : candidates.zipIdx ×ˢ [deriveContextId digests context] =
      candidates.zipIdx.map fun cell => (cell, deriveContextId digests context) :=
    List.map_eq_flatMap.symm
  rw [hcells, workIds, List.map_map]
  refine Except.mapM_map_eq _ _ _ _ _ h ?_
  intro candidate item hitem
  obtain ⟨-, -, -, hcontext, hid⟩ := fromCandidateRef_eq_ok _ _ _ _ _ _ hitem
  rw [hid, hcontext]
  rfl

/-- The ids under hypotheses are those of the candidates under each. -/
theorem hypothesisWorkItems_workIds (digests : Digests κ) (contexts : List (DecisionContext κ β))
    (candidates : List PipelineCandidateRef) (items : List (WorkItem κ β))
    (h : hypothesisWorkItems digests contexts candidates = .ok items) :
    items.map (·.workId) =
      workIds digests (candidates.zipIdx ×ˢ contexts.map (deriveContextId digests)) := by
  have hcells : candidates.zipIdx ×ˢ contexts.map (deriveContextId digests) =
      (candidates.zipIdx ×ˢ contexts).map (Prod.map id (deriveContextId digests)) := by
    simp only [SProd.sprod, List.product, List.map_flatMap, List.map_map]
    rfl
  rw [hcells, workIds, List.map_map]
  refine Except.mapM_map_eq _ _ _ _ _ h ?_
  intro cell item hitem
  obtain ⟨-, -, -, hcontext, hid⟩ := fromCandidateRef_eq_ok _ _ _ _ _ _ hitem
  rw [hid, hcontext]
  rfl

/-- The items of every candidate in every context of a list, in any batch. -/
theorem workIds_product_nodup_iff (digests : Digests κ) (contextIds : List String)
    (hne : contextIds ≠ []) (hnodup : contextIds.Nodup) (candidates : List PipelineCandidateRef)
    (hdigest : Set.InjOn digests.jsonDigest {payload | ∃ contextId ∈ contextIds, ∃ kind,
      ∃ candidate ∈ candidates, payload = workIdentity contextId kind candidate}) :
    (workIds digests (candidates.zipIdx ×ˢ contextIds)).Nodup ↔
      ((candidates.drop 1).map (·.identity)).Nodup := by
  have hcells : (candidates.zipIdx ×ˢ contextIds).map (Prod.map cellIdentity id) =
      candidates.zipIdx.map cellIdentity ×ˢ contextIds := by
    simp only [SProd.sprod, List.product, List.map_flatMap, List.flatMap_map, List.map_map]
    rfl
  rw [workIds_nodup_iff digests _ (hdigest.mono ?_), hcells, nodup_product_iff hne hnodup,
    cellIdentity_nodup_iff]
  rintro payload ⟨cell, hcell, rfl⟩
  obtain ⟨hcandidate, hcontext⟩ := List.mem_product.mp hcell
  exact ⟨cell.2, hcontext, _, cell.1.1, List.fst_mem_of_mem_zipIdx hcandidate, rfl⟩

/-- Where the digest tells contents apart, the items of a plain batch have
    distinct ids exactly when no two candidates after the first are the same
    action with the same targets and score. -/
theorem plainWorkItems_nodup_iff (digests : Digests κ) (context : DecisionContext κ β)
    (candidates : List PipelineCandidateRef) (items : List (WorkItem κ β))
    (hdigest : Set.InjOn digests.jsonDigest {payload | ∃ kind, ∃ candidate ∈ candidates,
      payload = workIdentity (deriveContextId digests context) kind candidate})
    (h : plainWorkItems digests context candidates = .ok items) :
    (items.map (·.workId)).Nodup ↔ ((candidates.drop 1).map (·.identity)).Nodup := by
  rw [plainWorkItems_workIds digests context candidates items h]
  refine workIds_product_nodup_iff digests _ (List.cons_ne_nil _ _) (List.nodup_singleton _)
    candidates (hdigest.mono ?_)
  rintro payload ⟨contextId, hcontext, kind, candidate, hcandidate, rfl⟩
  rw [List.mem_singleton.mp hcontext]
  exact ⟨kind, candidate, hcandidate, rfl⟩

/-- The items of a hypothesis batch have distinct ids exactly under the same condition, if
    the hypotheses give distinct contexts. -/
theorem hypothesisWorkItems_nodup_iff (digests : Digests κ)
    (contexts : List (DecisionContext κ β)) (hne : contexts ≠ [])
    (hcontexts : (contexts.map (deriveContextId digests)).Nodup)
    (candidates : List PipelineCandidateRef) (items : List (WorkItem κ β))
    (hdigest : Set.InjOn digests.jsonDigest {payload | ∃ context ∈ contexts, ∃ kind,
      ∃ candidate ∈ candidates,
        payload = workIdentity (deriveContextId digests context) kind candidate})
    (h : hypothesisWorkItems digests contexts candidates = .ok items) :
    (items.map (·.workId)).Nodup ↔ ((candidates.drop 1).map (·.identity)).Nodup := by
  rw [hypothesisWorkItems_workIds digests contexts candidates items h]
  refine workIds_product_nodup_iff digests _ (mt List.map_eq_nil_iff.mp hne) hcontexts
    candidates (hdigest.mono ?_)
  rintro payload ⟨contextId, hcontext, kind, candidate, hcandidate, rfl⟩
  obtain ⟨context, hmem, rfl⟩ := List.mem_map.mp hcontext
  exact ⟨context, hmem, kind, candidate, hcandidate, rfl⟩

end Combat

end STS2RL
