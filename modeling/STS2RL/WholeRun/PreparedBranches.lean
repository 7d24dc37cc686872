import STS2RL.WholeRun.InstanceInvariants

/-!
# Branches that are Prepared

A branch of an event is built from the decision of its parent: that of the root, or
the one in the record of another branch. Building it changes nothing but what is known
of the root. A batch reads the decision of each parent once.

So the operations that branch at an event have one shape. They come to prepared
branches, commit them, and give them to the workers.

## Main definitions

* `Viewed`: A decision to branch from.
* `PreparedFrom`: A branch that was built from one.
* `OneView`: Branches of one parent are built from one decision.

## Theorems

* `viewFor_viewed`, `parentViews_viewed`: What reading a decision gives.
* `preparedFrom_of_batch`: What a batch is prepared to.
* `emulateEventAction_triple`, `emulateEventBatch_triple`: The operations.
-/

namespace STS2RL

namespace WholeRun

open Api (PyError Fields EmulateItem)

variable {W Φ κ β α : Type}

namespace Instance

variable (env : RunEnv W Φ κ β)

/-- The view that a branch of the parent is built from. -/
def Viewed (inst : Instance W Φ κ β) (parentBranchId : PyStr) (view : View) : Prop :=
  if parentBranchId = root then view.choiceType = choiceTypeFromBoundary view.boundary
  else bookViewFor inst parentBranchId = .ok view

/-- What passes the checks is at an event, and has the lineage of its parent. -/
theorem validated_of_ok {inst : Instance W Φ κ β} {item : EmulateItem} {view : View}
    {spec : BranchSpec} (h : validateEventBranch inst item view = .ok spec) :
    spec.parentView = view ∧ spec.item = item ∧ view.boundary = .eventChoice ∧
      checkLineage inst item.parentBranchId item.rngId = .ok () := by
  unfold validateEventBranch at h
  split at h
  · cases h
  rcases hcommon : validateCommonBranch inst item view with error | _
  · rw [hcommon] at h
    cases h
  rw [hcommon] at h
  dsimp only at h
  split at h
  · cases h
  rename_i hboundary
  rcases (Except.map_eq_ok _ _ _).mp h with ⟨chosen, -, rfl⟩
  refine ⟨rfl, rfl, not_not.mp hboundary, ?_⟩
  unfold validateCommonBranch at hcommon
  split at hcommon
  · cases hcommon
  split at hcommon
  · cases hcommon
  rcases hlineage : checkLineage inst item.parentBranchId item.rngId with error | _
  · rw [hlineage] at hcommon
    cases hcommon
  · rfl

/-- A decision to branch from is that of a record. -/
theorem book_of_bookViewFor {inst : Instance W Φ κ β} {branchId : PyStr} {view : View}
    (h : bookViewFor inst branchId = .ok view) :
    ∃ book, inst.bookkeeping.get? branchId = some book ∧ book.view = some (.run view) ∧
      ¬ (book.status = .cancelled ∨ book.status = .released ∨ book.status = .faulted) := by
  unfold bookViewFor at h
  rcases hbook : inst.bookkeeping.get? branchId with _ | book
  · rw [hbook] at h
    cases h
  rw [hbook] at h
  dsimp only at h
  split at h
  · cases h
  rename_i hends
  split at h
  · cases h
  refine ⟨book, rfl, ?_, hends⟩
  rcases hview : book.view with _ | ⟨view' | view'⟩
  · rw [hview] at h
    cases h
  · rw [hview] at h
    dsimp only at h
    split at h
    · cases h
    · cases h
      rfl
  · rw [hview] at h
    cases h

section Views

/-- A decision of the root is of the kind of its boundary. -/
theorem rootView_choiceType : Act.Triple (fun _ => True) (rootView env)
    (fun view _ => view.choiceType = choiceTypeFromBoundary view.boundary) fun _ _ => True := by
  unfold rootView
  exact .bind (Act.Triple.anywhere _) fun _ => .bind (Act.Triple.anywhere _) fun _ =>
    .bind (Act.Triple.anywhere _) fun _ => .bind (Act.Triple.anywhere _) fun _ =>
    .bind (Act.Triple.anywhere _) fun _ => .bind (Act.Triple.anywhere _) fun _ =>
      .pure fun _ _ => rfl

theorem Viewed.congr {inst inst' : Instance W Φ κ β} {parentBranchId : PyStr} {view : View}
    (h : Viewed inst parentBranchId view) (hbooks : inst'.bookkeeping = inst.bookkeeping) :
    Viewed inst' parentBranchId view := by
  unfold Viewed bookViewFor at h ⊢
  rw [hbooks]
  exact h

variable {I : Instance W Φ κ β → Prop} (hI : IgnoresView I)
include hI

/-- The view a request works with is the parent's. -/
theorem viewFor_viewed (parentBranchId : PyStr) :
    Act.Triple I (viewFor env parentBranchId)
      (fun view inst => I inst ∧ Viewed inst parentBranchId view) fun _ => I := by
  unfold viewFor Viewed
  by_cases hroot : parentBranchId = root
  · simp only [if_pos hroot]
    exact ((hI.rootView env).and (rootView_choiceType env)).conseq (fun _ h => ⟨h, trivial⟩)
      (fun _ _ h => h) fun _ _ h => h.1
  · simp only [if_neg hroot]
    intro inst h
    rw [Act.get_bind, Act.ofExcept_apply]
    rcases hview : bookViewFor inst parentBranchId with error | view
    · exact h
    · exact ⟨h, hview⟩

/-- So are all views of a batch. -/
theorem parentViews_viewed (items : List EmulateItem) (views : List (PyStr × View)) :
    Act.Triple (fun inst => I inst ∧ ∀ entry ∈ views, Viewed inst entry.1 entry.2)
      (Beam.parentViews env items views)
      (fun views inst => I inst ∧ ∀ entry ∈ views, Viewed inst entry.1 entry.2) fun _ => I := by
  induction items generalizing views with
  | nil => exact .pure fun _ h => h
  | cons item rest ih =>
      unfold Beam.parentViews
      split
      · exact ih views
      · -- Reading another decision changes no record.
        have hboth : IgnoresView fun inst => I inst ∧
          ∀ entry ∈ views, Viewed inst entry.1 entry.2 :=
          ⟨fun inst session h => ⟨hI.session inst session h.1, fun entry hentry =>
            (h.2 entry hentry).congr rfl⟩, fun inst history h =>
            ⟨hI.rootHistory inst history h.1, fun entry hentry => (h.2 entry hentry).congr rfl⟩⟩
        refine Act.Triple.bind (E := fun _ => I) ((viewFor_viewed env hboth _).conseq (fun _ h => h)
          (fun _ _ h => h) fun _ _ h => h.1) fun view => ?_
        refine (ih (views ++ [(item.parentBranchId, view)])).conseq (fun inst h => ⟨h.1.1, ?_⟩)
          (fun _ _ h => h) fun _ _ h => h
        intro entry hentry
        rcases List.mem_append.mp hentry with hold | hlast
        · exact h.1.2 entry hold
        · rw [List.mem_singleton.mp hlast]
          exact h.2

end Views

section Prepared

variable {inst : Instance W Φ κ β}

/-- A branch that was built from the decision of its parent. -/
structure PreparedFrom (inst : Instance W Φ κ β) (prepared : PreparedEvent κ β) : Prop where
  viewed : Viewed inst prepared.spec.item.parentBranchId prepared.spec.parentView
  validated :
    validateEventBranch inst prepared.spec.item prepared.spec.parentView = .ok prepared.spec
  built : prepareEventBranch env inst prepared.spec = .ok prepared

/-- Branches of one parent are built from one decision. -/
def OneView (batch : List (PreparedEvent κ β)) : Prop :=
  ∀ prepared ∈ batch, ∀ prepared' ∈ batch,
    prepared.spec.item.parentBranchId = prepared'.spec.item.parentBranchId →
      prepared.spec.parentView = prepared'.spec.parentView

theorem spec_of_prepared {spec : BranchSpec} {prepared : PreparedEvent κ β}
    (h : prepareEventBranch env inst spec = .ok prepared) : prepared.spec = spec := by
  rcases (Except.map_eq_ok _ _ _).mp h with ⟨plan, -, rfl⟩
  rfl

theorem preparedFrom_of_ok {item : EmulateItem} {view : View}
    (hview : Viewed inst item.parentBranchId view) {spec : BranchSpec}
    (hspec : validateEventBranch inst item view = .ok spec) {prepared : PreparedEvent κ β}
    (hprepared : prepareEventBranch env inst spec = .ok prepared) :
    PreparedFrom env inst prepared := by
  rcases validated_of_ok hspec with ⟨rfl, rfl, -, -⟩
  obtain rfl := spec_of_prepared env hprepared
  exact ⟨hview, hspec, hprepared⟩

/-- Every item of a validated batch was valid. -/
theorem validated_of_all {views : List (PyStr × View)} {items : List EmulateItem}
    {specs : List BranchSpec} (h : Beam.validateAll inst views items = .ok specs) :
    specs.map BranchSpec.item = items ∧ ∀ spec ∈ specs,
      Dict.lookupL spec.item.parentBranchId views = some spec.parentView ∧
        validateEventBranch inst spec.item spec.parentView = .ok spec := by
  induction items generalizing specs with
  | nil =>
      cases h
      exact ⟨rfl, fun _ hspec => nomatch hspec⟩
  | cons item rest ih =>
      unfold Beam.validateAll at h
      rcases hview : Dict.lookupL item.parentBranchId views with _ | view
      · rw [hview] at h
        cases h
      rw [hview] at h
      dsimp only at h
      rcases hvalid : validateEventBranch inst item view with error | first
      · rw [hvalid] at h
        cases h
      rw [hvalid] at h
      rcases (Except.map_eq_ok _ _ _).mp h with ⟨others, hothers, rfl⟩
      rcases ih hothers with ⟨hitems, hall⟩
      rcases validated_of_ok hvalid with ⟨rfl, rfl, -, -⟩
      refine ⟨by rw [List.map_cons, hitems], fun spec hspec => ?_⟩
      rcases List.mem_cons.mp hspec with rfl | hspec
      · exact ⟨hview, hvalid⟩
      · exact hall spec hspec

/-- Every branch of a prepared batch was built from its item. -/
theorem prepared_of_all {specs : List BranchSpec} {batch : List (PreparedEvent κ β)}
    (h : Beam.prepareAll env inst specs = .ok batch) :
    batch.map PreparedEvent.spec = specs ∧
      ∀ prepared ∈ batch, prepareEventBranch env inst prepared.spec = .ok prepared := by
  induction specs generalizing batch with
  | nil =>
      cases h
      exact ⟨rfl, fun _ hprepared => nomatch hprepared⟩
  | cons spec rest ih =>
      unfold Beam.prepareAll at h
      rcases hspec : prepareEventBranch env inst spec with error | first
      · rw [hspec] at h
        cases h
      rw [hspec] at h
      rcases (Except.map_eq_ok _ _ _).mp h with ⟨others, hothers, rfl⟩
      rcases ih hothers with ⟨hspecs, hall⟩
      obtain rfl := spec_of_prepared env hspec
      refine ⟨by rw [List.map_cons, hspecs], fun prepared hprepared => ?_⟩
      rcases List.mem_cons.mp hprepared with rfl | hprepared
      · exact hspec
      · exact hall prepared hprepared

/-- The entries of a batch are for its items, and each is built from the decision of its
    parent, which is read once. -/
theorem preparedFrom_of_batch {views : List (PyStr × View)} {items : List EmulateItem}
    {batch : List (PreparedEvent κ β)} (h : Beam.prepareBatch env inst views items = .ok batch)
    (hviews : ∀ entry ∈ views, Viewed inst entry.1 entry.2) :
    (batch.map fun prepared => prepared.spec.item) = items ∧
      (∀ prepared ∈ batch, PreparedFrom env inst prepared) ∧ OneView batch := by
  -- Each step of the preparation succeeded, for the batch was returned.
  unfold Beam.prepareBatch at h
  rcases hevent : Beam.isEventBatch views with error | atEvent
  · rw [hevent] at h
    cases h
  rw [hevent] at h
  cases atEvent
  · cases h
  dsimp only at h
  rcases hspecs : Beam.validateAll inst views items with error | specs
  · rw [hspecs] at h
    cases h
  rw [hspecs] at h
  dsimp only at h
  split at h
  · cases h
  rcases validated_of_all hspecs with ⟨rfl, hvalid⟩
  rcases prepared_of_all env h with ⟨rfl, hbuilt⟩
  -- Every prepared branch belongs to an item that was valid.
  have hof : ∀ prepared ∈ batch, _ := fun prepared hprepared =>
    hvalid prepared.spec (List.mem_map_of_mem hprepared)
  refine ⟨List.map_map.symm, fun prepared hprepared => ?_,
    fun prepared hprepared prepared' hprepared' hparent => ?_⟩
  · rcases hof prepared hprepared with ⟨hview, hspec⟩
    exact ⟨hviews _ (Dict.lookupL_mem hview), hspec, hbuilt prepared hprepared⟩
  -- Two of one parent were validated against the same view.
  · have hview := (hof prepared hprepared).1
    rw [hparent, (hof prepared' hprepared').1] at hview
    exact (Option.some.inj hview).symm

/-- There is room for the branches of a batch. -/
theorem room_of_batch {views : List (PyStr × View)} {items : List EmulateItem}
    {batch : List (PreparedEvent κ β)} (h : Beam.prepareBatch env inst views items = .ok batch) :
    inst.activeBranchCount + batch.length ≤ env.maxBranches := by
  unfold Beam.prepareBatch at h
  rcases hevent : Beam.isEventBatch views with error | atEvent
  · rw [hevent] at h
    cases h
  rw [hevent] at h
  cases atEvent
  · cases h
  dsimp only at h
  rcases hspecs : Beam.validateAll inst views items with error | specs
  · rw [hspecs] at h
    cases h
  rw [hspecs] at h
  dsimp only at h
  split at h
  · cases h
  · rename_i hroom
    have hlength : batch.length = specs.length := by
      rw [← (prepared_of_all env h).1, List.length_map]
    omega

end Prepared

section Operations

variable {I E : Instance W Φ κ β → Prop} (hI : IgnoresView I) (hE : ∀ inst, I inst → E inst)
include hI hE

/-- A branch of an event is built, committed, and given to a worker. -/
theorem emulateEventAction_triple {J : PreparedEvent κ β → Instance W Φ κ β → Prop}
    (hcommit : ∀ inst prepared, I inst → PreparedFrom env inst prepared →
      inst.activeBranchCount < env.maxBranches →
      Act.Triple (fun s => s = inst) (commitPreparedBranch prepared)
        (fun _ => J prepared) fun _ => E)
    (hdispatch : ∀ prepared,
      Act.Triple (J prepared) (dispatchOne env prepared) (fun _ => E) fun _ => E)
    (item : EmulateItem) (simulationOptions : Option Fields) :
    Act.Triple I (emulateEventAction env item simulationOptions) (fun _ => E) fun _ => E := by
  -- Everything up to the commit only checks, and caches the view of the parent.
  have hchecks : ∀ {γ : Type} {m : Op W Φ κ β γ}, Act.Keeps I m →
      Act.Triple I m (fun _ => I) fun _ => E :=
    fun hm => Act.Triple.conseq hm (fun _ h => h) (fun _ _ h => h) fun _ _ h => hE _ h
  unfold emulateEventAction
  refine .bind (hchecks keeps_ensureMutable) fun _ => .bind (hchecks (.ofExcept _)) fun _ =>
    .bind (hchecks .get) fun _ => .bind (hchecks (.raiseIf _ _)) fun _ =>
    .bind ((viewFor_viewed env hI _).conseq (fun _ h => h) (fun _ _ h => h)
      fun _ _ h => hE _ h) fun view => ?_
  -- With the view at hand the item is validated, the room is checked and the branch prepared.
  rintro inst ⟨h, hview⟩
  rw [Act.get_bind, Act.bind_apply, Act.ofExcept_apply]
  rcases hspec : validateEventBranch inst item view with error | spec
  · exact hE _ h
  dsimp only
  refine Act.Triple.bind (P := fun s => s = inst)
    (Q := fun _ s => s = inst ∧ inst.activeBranchCount < env.maxBranches)
    (.raiseIf (fun _ hs hroom => ⟨hs, Nat.not_le.mp hroom⟩) fun _ hs _ => hs ▸ hE _ h)
    (fun _ => ?_) inst rfl
  rintro now ⟨hnow, hroom⟩
  rw [hnow, Act.bind_apply, Act.ofExcept_apply]
  rcases hprepared : prepareEventBranch env inst spec with error | prepared
  · exact hE _ h
  -- Then it is committed and dispatched.
  exact Act.Triple.bind (hcommit inst prepared h (preparedFrom_of_ok env hview hspec hprepared)
    hroom) (fun _ => hdispatch prepared) inst rfl

/-- The branches of a batch are built, committed, and given to the workers. -/
theorem emulateEventBatch_triple {J : List (PreparedEvent κ β) → Instance W Φ κ β → Prop}
    (hcommit : ∀ inst batch, I inst → (∀ prepared ∈ batch, PreparedFrom env inst prepared) →
      OneView batch → inst.activeBranchCount + batch.length ≤ env.maxBranches →
      Act.Triple (fun s => s = inst) (commitBatch batch) (fun _ => J batch) fun _ => E)
    (hdispatch : ∀ batch,
      Act.Triple (J batch) (Beam.dispatchPreparedBatch env batch) (fun _ => E) fun _ => E)
    (items : List EmulateItem) :
    Act.Triple I (Beam.emulateEventBatch env items) (fun _ => E) fun _ => E := by
  unfold Beam.emulateEventBatch
  refine .bind ((parentViews_viewed env hI items []).conseq
    (fun _ h => ⟨h, fun _ hentry => nomatch hentry⟩) (fun _ _ h => h) fun _ _ h => hE _ h)
    fun views => ?_
  rintro inst ⟨h, hviews⟩
  rw [Act.get_bind, Act.bind_apply, Act.ofExcept_apply]
  rcases hprepared : Beam.prepareBatch env inst views items with error | batch
  · exact hE _ h
  rcases preparedFrom_of_batch env hprepared hviews with ⟨-, hfrom, hone⟩
  exact Act.Triple.bind (hcommit inst batch h hfrom hone (room_of_batch env hprepared))
    (fun _ => hdispatch batch) inst rfl

end Operations

end Instance

end WholeRun

end STS2RL
