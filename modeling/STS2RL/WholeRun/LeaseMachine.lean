import STS2RL.Core.Run
import STS2RL.WholeRun.GameAccess

/-!
# The Lease Machine

What holds of the game's lease over every sequence of operations, by any holders
and with any leases presented.

A lease is judged by its generation, and no operation that succeeds leaves the
generation as it was, but for the use of the game. So a lease that is superseded,
released or handed off is behind for good, and a rollback does not help it: that
goes back to the state and the holder from before the hand-off, but not to the
lease.

## Main definitions

* `AccessOp`, `leaseStep`: The operations, and the machine that runs them.
* `issuedBy`: The leases that a sequence of operations was given.
* `MayUse`, `BegunBy`: Which lease may be used, and which hand-off is under way.
* `LeaseLaw`: What the machine promises.
* `handOff`: A hand-off that is rolled back, and what the holders try.

## Theorems

* `perform_cases`: What an operation that succeeds can do.
* `final_eq_or_lt`: A sequence changes nothing, or the generation grows.
* `issued_of_mayUse`: A lease that may be used was issued.
* `begunBy_of_transferring`: A hand-off under way was begun, and nothing came since.
* `lease_machine_law`: The law of the machine.
-/

namespace STS2RL

namespace WholeRun

open Api (PyError)

/-- The sides that a holder can claim the game for. -/
inductive Side where
  | run
  | combat
  deriving DecidableEq, Repr

/-- The state in which a side holds the lease. -/
def Side.leaseState : Side → LeaseState
  | run => .run
  | combat => .combat

theorem Side.run_or_combat (side : Side) : side.leaseState = .run ∨ side.leaseState = .combat := by
  cases side with
  | run => exact .inl rfl
  | combat => exact .inr rfl

/-- An operation on the access, with the lease it presents. -/
inductive AccessOp where
  | claim (holder : Nat) (side : Side)
  | release (lease : GameLease)
  | mutatingGame (lease : GameLease)
  | «begin» (lease : GameLease)
  | commit (transfer : GameLease) (target : LeaseState) (holder : Nat)
  | rollback (transfer : GameLease)
  | poison
  deriving DecidableEq

namespace AccessOp

/-- The lease that an operation gives, and the access after it. -/
def perform (access : GameAccess) : AccessOp → Except PyError (Option GameLease × GameAccess)
  | claim holder side =>
      (access.claim holder side.leaseState).map fun done => (some done.1, done.2)
  | release lease => (access.release lease).map fun access' => (none, access')
  | mutatingGame lease => (access.validateCurrent lease).map fun _ => (none, access)
  | «begin» lease => (access.begin lease).map fun done => (some done.1, done.2)
  | commit transfer target holder =>
      (access.commit transfer target holder).map fun done => (some done.1, done.2)
  | rollback transfer => (access.rollback transfer).map fun done => (some done.1, done.2)
  | poison => .ok (none, access.poison)

/-- The operation changes the game, and not who may change it. -/
def Uses : AccessOp → Prop
  | mutatingGame _ => True
  | _ => False

end AccessOp

/-- One operation. One that raises changes nothing. -/
def leaseStep (access : GameAccess) (op : AccessOp) :
    GameAccess × Except PyError (Option GameLease) :=
  match op.perform access with
  | .error error => (access, .error error)
  | .ok (issued, access') => (access', .ok issued)

/-- The leases among the answers. -/
def issuedAmong : List (Except PyError (Option GameLease)) → List GameLease
  | [] => []
  | .ok (some lease) :: rest => lease :: issuedAmong rest
  | .ok none :: rest => issuedAmong rest
  | .error _ :: rest => issuedAmong rest

/-- The leases that the operations are given, from a new access on. -/
def issuedBy (ops : List AccessOp) : List GameLease :=
  issuedAmong (Run.outputs leaseStep {} ops)

theorem issuedAmong_append (answers answers' : List (Except PyError (Option GameLease))) :
    issuedAmong (answers ++ answers') = issuedAmong answers ++ issuedAmong answers' := by
  induction answers with
  | nil => rfl
  | cons answer rest ih =>
      match answer with
      | .ok (some lease) => simp [issuedAmong, ih]
      | .ok none => simp [issuedAmong, ih]
      | .error _ => simp [issuedAmong, ih]

/-- A hand-off goes back to a side, never to another hand-off or to a poisoned access. -/
def OriginLawful (access : GameAccess) : Prop :=
  ∀ origin, access.transferOrigin = some origin → origin.1 = .run ∨ origin.1 = .combat

/-!
### One operation

What an operation may do to the machine: it changes nothing, or the generation goes up and
every lease from before is invalid.
-/

section Steps

variable {access access' : GameAccess} {op : AccessOp} {issued : Option GameLease}

/-- What an operation that succeeds can do: use the current lease, or change the
    access in a new generation, which a lease that it gives is of. A hand-off is
    under way afterwards only when the operation has begun it. -/
theorem perform_cases (hlawful : OriginLawful access)
    (h : op.perform access = .ok (issued, access')) :
    (∃ lease, op = .mutatingGame lease ∧ access.Current lease ∧ issued = none ∧
      access' = access) ∨
    (access'.generation = access.generation + 1 ∧
      (∀ lease, issued = some lease → lease.generation = access'.generation) ∧
      OriginLawful access' ∧
      (access'.state = .transferring → ∃ lease, op = .begin lease ∧ access.Current lease)) := by
  cases op with
  | claim holder side =>
      rcases (Except.map_eq_ok _ _ _).mp h with ⟨done, hdone, heq⟩
      cases heq
      -- A claim leaves the machine claimed, never in a transfer.
      unfold GameAccess.claim at hdone
      split at hdone
      · cases hdone
      · split at hdone
        · cases hdone
        · cases hdone
          refine .inr ⟨rfl, fun lease hlease => ?_, hlawful, fun hstate => ?_⟩
          · cases hlease
            rfl
          · cases side <;> cases hstate
  | release lease =>
      rcases (Except.map_eq_ok _ _ _).mp h with ⟨done, hdone, heq⟩
      cases heq
      rcases (Except.map_eq_ok _ _ _).mp hdone with ⟨u, hvalid, rfl⟩
      -- A release asks for the lease that is current, so there was no transfer.
      have hcurrent := GameAccess.validateCurrent_eq_ok.mp hvalid
      exact .inr ⟨rfl, fun lease hlease => (by cases hlease), hlawful,
        fun hstate => absurd hstate hcurrent.2.1⟩
  -- A mutation asks for the same, and changes nothing.
  | mutatingGame lease =>
      rcases (Except.map_eq_ok _ _ _).mp h with ⟨u, hvalid, heq⟩
      cases heq
      exact .inl ⟨lease, rfl, GameAccess.validateCurrent_eq_ok.mp hvalid, rfl, rfl⟩
  | «begin» lease =>
      rcases (Except.map_eq_ok _ _ _).mp h with ⟨done, hdone, heq⟩
      -- A begin is the one operation that leads into a transfer.
      cases heq
      rcases (Except.map_eq_ok _ _ _).mp hdone with ⟨u, hvalid, rfl⟩
      have hcurrent := GameAccess.validateCurrent_eq_ok.mp hvalid
      refine .inr ⟨rfl, fun issued hissued => ?_, fun origin horigin => ?_,
        fun _ => ⟨lease, rfl, hcurrent⟩⟩
      · cases hissued
        rfl
      · cases horigin
        exact hcurrent.side
  | commit transfer target holder =>
      rcases (Except.map_eq_ok _ _ _).mp h with ⟨done, hdone, heq⟩
      cases heq
      -- A commit leads to the side it names, which is no transfer.
      unfold GameAccess.commit at hdone
      split at hdone
      · cases hdone
      · split at hdone
        · cases hdone
        · rename_i htarget
          cases hdone
          refine .inr ⟨rfl, fun lease hlease => ?_, fun origin horigin => (by cases horigin),
            fun hstate => ?_⟩
          · cases hlease
            rfl
          · have hne : target = .transferring := hstate
            rw [hne] at htarget
            exact absurd ⟨by decide, by decide⟩ htarget
  | rollback transfer =>
      rcases (Except.map_eq_ok _ _ _).mp h with ⟨done, hdone, heq⟩
      cases heq
      rcases (Except.map_eq_ok _ _ _).mp hdone with ⟨origin, hvalid, rfl⟩
      -- A rollback goes back to the side the transfer came from, and no transfer came from one.
      have horigin := (GameAccess.validateTransfer_eq_ok hvalid).2
      refine .inr ⟨rfl, fun lease hlease => ?_, fun origin horigin => (by cases horigin),
        fun hstate => ?_⟩
      · cases hlease
        rfl
      · have hto : origin.1 = .transferring := hstate
        rcases hlawful origin horigin with hside | hside <;> rw [hside] at hto <;> cases hto
  | poison =>
      cases h
      exact .inr ⟨rfl, fun lease hlease => (by cases hlease), fun origin horigin =>
        (by cases horigin),
        fun hstate => by cases hstate⟩

/-- A step that succeeds, and the access it leaves. -/
theorem perform_of_answer (h : (leaseStep access op).2 = .ok issued) :
    op.perform access = .ok (issued, (leaseStep access op).1) := by
  unfold leaseStep at h ⊢
  cases hperform : op.perform access with
  | error error =>
      rw [hperform] at h
      cases h
  | ok done =>
      rw [hperform] at h
      cases h
      rfl

/-- Whoever holds a side after an operation held it before, or was given the lease. -/
theorem holder_of_perform (h : op.perform access = .ok (issued, access')) :
    access' = access ∨ ∀ holder, access'.holder = some holder →
      access'.state ≠ .transferring → issued =
        some ⟨holder, access'.state, access'.generation⟩ := by
  cases op with
  | claim holder side =>
      rcases (Except.map_eq_ok _ _ _).mp h with ⟨done, hdone, heq⟩
      cases heq
      unfold GameAccess.claim at hdone
      split at hdone
      · cases hdone
      · split at hdone
        · cases hdone
        · cases hdone
          -- A claim issues the lease of its holder.
          refine .inr fun holder hholder _ => ?_
          cases hholder
          rfl
  | release lease =>
      rcases (Except.map_eq_ok _ _ _).mp h with ⟨done, hdone, heq⟩
      cases heq
      rcases (Except.map_eq_ok _ _ _).mp hdone with ⟨u, -, rfl⟩
      -- A release leaves no holder.
      refine .inr fun holder hholder _ => ?_
      cases hholder
  | mutatingGame lease =>
      rcases (Except.map_eq_ok _ _ _).mp h with ⟨u, -, heq⟩
      cases heq
      exact .inl rfl
  | «begin» lease =>
      rcases (Except.map_eq_ok _ _ _).mp h with ⟨done, hdone, heq⟩
      cases heq
      rcases (Except.map_eq_ok _ _ _).mp hdone with ⟨u, -, rfl⟩
      -- A begin is in transfer, where no lease is asked for.
      exact .inr fun holder _ hstate => absurd rfl hstate
  | commit transfer target holder =>
      rcases (Except.map_eq_ok _ _ _).mp h with ⟨done, hdone, heq⟩
      cases heq
      unfold GameAccess.commit at hdone
      split at hdone
      · cases hdone
      · split at hdone
        · cases hdone
        · cases hdone
          -- A commit issues the lease of the holder it names.
          refine .inr fun holder hholder _ => ?_
          cases hholder
          rfl
  | rollback transfer =>
      rcases (Except.map_eq_ok _ _ _).mp h with ⟨done, hdone, heq⟩
      cases heq
      rcases (Except.map_eq_ok _ _ _).mp hdone with ⟨origin, -, rfl⟩
      -- A rollback issues a lease for the holder there was.
      refine .inr fun holder hholder _ => ?_
      cases hholder
      rfl
  | poison =>
      cases h
      refine .inr fun holder hholder _ => ?_
      cases hholder

/-- A poisoned access stays poisoned. -/
theorem poisoned_of_perform (hpoisoned : access.state = .poisoned)
    (h : op.perform access = .ok (issued, access')) : access'.state = .poisoned := by
  -- No lease and no transfer is current in the poisoned machine.
  have hvalid : ∀ lease u, access.validateCurrent lease ≠ .ok u := fun lease u hvalid =>
    (GameAccess.validateCurrent_eq_ok.mp hvalid).1 hpoisoned
  have htransfer : ∀ transfer origin, access.validateTransfer transfer ≠ .ok origin :=
    fun transfer origin hok => by
      have hstate := (GameAccess.validateTransfer_eq_ok hok).1.1
      rw [hpoisoned] at hstate
      cases hstate
  cases op with
  | claim holder side =>
      rcases (Except.map_eq_ok _ _ _).mp h with ⟨done, hdone, -⟩
      unfold GameAccess.claim at hdone
      rw [if_pos hpoisoned] at hdone
      cases hdone
  | release lease =>
      rcases (Except.map_eq_ok _ _ _).mp h with ⟨done, hdone, -⟩
      rcases (Except.map_eq_ok _ _ _).mp hdone with ⟨u, hok, -⟩
      exact absurd hok (hvalid lease u)
  | mutatingGame lease =>
      rcases (Except.map_eq_ok _ _ _).mp h with ⟨u, hok, -⟩
      exact absurd hok (hvalid lease u)
  | «begin» lease =>
      rcases (Except.map_eq_ok _ _ _).mp h with ⟨done, hdone, -⟩
      rcases (Except.map_eq_ok _ _ _).mp hdone with ⟨u, hok, -⟩
      exact absurd hok (hvalid lease u)
  | commit transfer target holder =>
      rcases (Except.map_eq_ok _ _ _).mp h with ⟨done, hdone, -⟩
      unfold GameAccess.commit at hdone
      split at hdone
      · cases hdone
      · rename_i origin hok
        exact absurd hok (htransfer transfer origin)
  | rollback transfer =>
      rcases (Except.map_eq_ok _ _ _).mp h with ⟨done, hdone, -⟩
      rcases (Except.map_eq_ok _ _ _).mp hdone with ⟨origin, hok, -⟩
      exact absurd hok (htransfer transfer origin)
  | poison =>
      cases h
      rfl

/-- One step, from what an operation that succeeds can do. -/
theorem step_cases (hlawful : OriginLawful access) (op : AccessOp) :
    (leaseStep access op).1 = access ∨
      (access.generation < (leaseStep access op).1.generation ∧
        OriginLawful (leaseStep access op).1) := by
  unfold leaseStep
  cases hperform : op.perform access with
  | error error => exact .inl rfl
  | ok done =>
      rcases done with ⟨issued, access'⟩
      rcases perform_cases hlawful hperform with ⟨lease, _, _, _, rfl⟩ |
        ⟨hgeneration, _, hlawful', _⟩
      · exact .inl rfl
      · refine .inr ⟨?_, hlawful'⟩
        dsimp only
        omega

/-- A lease that a step gives is of a new generation, the access's own. -/
theorem issued_generation (hlawful : OriginLawful access) {lease : GameLease}
    (h : (leaseStep access op).2 = .ok (some lease)) :
    access.generation < lease.generation ∧
      lease.generation = (leaseStep access op).1.generation := by
  unfold leaseStep at h ⊢
  cases hperform : op.perform access with
  | error error =>
      rw [hperform] at h
      cases h
  | ok done =>
      rcases done with ⟨issued, access'⟩
      rw [hperform] at h
      cases h
      rcases perform_cases hlawful hperform with
        ⟨_, _, _, hnone, _⟩ | ⟨hgeneration, hissued, _, _⟩
      · cases hnone
      · refine ⟨?_, hissued lease rfl⟩
        rw [hissued lease rfl]
        omega

end Steps

/-!
### Runs

What holds of the leases that a run issued.
-/

section Runs

open Run

theorem originLawful_final (access : GameAccess) (hlawful : OriginLawful access)
    (ops : List AccessOp) : OriginLawful (final leaseStep access ops) := by
  refine Run.invariant leaseStep (fun s op hs => ?_) access ops hlawful
  rcases step_cases hs op with hsame | ⟨_, hlawful'⟩
  · rw [hsame]
    exact hs
  · exact hlawful'

theorem originLawful_new : OriginLawful {} := by
  intro origin horigin
  cases horigin

/-- A sequence of operations changes nothing, or the generation grows. -/
theorem final_eq_or_lt (access : GameAccess) (hlawful : OriginLawful access)
    (ops : List AccessOp) :
    final leaseStep access ops = access ∨
      access.generation < (final leaseStep access ops).generation := by
  induction ops using List.reverseRecOn with
  | nil => exact .inl rfl
  | append_singleton before op ih =>
      rw [final_concat]
      rcases step_cases (originLawful_final access hlawful before) op with hsame | ⟨hlt, _⟩
      · rw [hsame]
        exact ih
      · rcases ih with heq | hless
        · rw [heq] at hlt ⊢
          exact .inr hlt
        · exact .inr (Nat.lt_trans hless hlt)

/-- A lease of a generation that the access has reached, and which is not current,
    never is again. -/
theorem never_current_again {access : GameAccess} (hlawful : OriginLawful access)
    {lease : GameLease} (hold : lease.generation ≤ access.generation)
    (hstale : ¬ access.Current lease) (later : List AccessOp) :
    ¬ (final leaseStep access later).Current lease := by
  rcases final_eq_or_lt access hlawful later with heq | hlt
  · rw [heq]
    exact hstale
  · intro hcurrent
    have hgeneration := hcurrent.2.2.1
    omega

/-- The leases that were given are of the generations up to the present one, each
    of a later one than the one before. -/
theorem issuedBy_ordered (ops : List AccessOp) :
    (issuedBy ops).Pairwise (fun earlier later => earlier.generation < later.generation) ∧
      ∀ lease ∈ issuedBy ops, lease.generation ≤ (final leaseStep {} ops).generation := by
  induction ops using List.reverseRecOn with
  | nil => exact ⟨List.Pairwise.nil, fun lease hlease => by cases hlease⟩
  | append_singleton before op ih =>
      rcases ih with ⟨hpairwise, hbounded⟩
      have hlawful := originLawful_final {} originLawful_new before
      -- The generation never goes down.
      have hmono : (final leaseStep {} before).generation ≤
          (leaseStep (final leaseStep {} before) op).1.generation := by
        rcases step_cases hlawful op with hsame | ⟨hlt, _⟩
        · exact Nat.le_of_eq (congrArg GameAccess.generation hsame.symm)
        · exact Nat.le_of_lt hlt
      unfold issuedBy at hpairwise hbounded ⊢
      rw [outputs_concat, issuedAmong_append, final_concat]
      -- A step that issues nothing adds no lease.
      match hanswer : (leaseStep (final leaseStep {} before) op).2 with
      | .error error =>
          rw [issuedAmong, issuedAmong, List.append_nil]
          exact ⟨hpairwise, fun lease hlease => Nat.le_trans (hbounded lease hlease) hmono⟩
      | .ok none =>
          rw [issuedAmong, issuedAmong, List.append_nil]
          exact ⟨hpairwise, fun lease hlease => Nat.le_trans (hbounded lease hlease) hmono⟩
      | .ok (some issued) =>
          -- A lease that is issued has the new generation, which is above the ones before.
          rcases issued_generation hlawful hanswer with ⟨hnew, hown⟩
          rw [issuedAmong, issuedAmong]
          constructor
          · rw [List.pairwise_append]
            refine ⟨hpairwise, List.pairwise_singleton _ _, fun lease hlease last hlast => ?_⟩
            rw [List.mem_singleton.mp hlast]
            exact Nat.lt_of_le_of_lt (hbounded lease hlease) hnew
          · intro lease hlease
            rcases List.mem_append.mp hlease with hlease | hlease
            · exact Nat.le_trans (hbounded lease hlease) hmono
            · exact Nat.le_of_eq (List.mem_singleton.mp hlease ▸ hown)

theorem poisoned_final (access : GameAccess) (h : access.state = .poisoned)
    (ops : List AccessOp) : (final leaseStep access ops).state = .poisoned := by
  refine Run.invariant leaseStep (I := fun s => s.state = .poisoned) (fun s op hs => ?_)
    access ops h
  unfold leaseStep
  cases hperform : op.perform s with
  | error error => exact hs
  | ok done => exact poisoned_of_perform hs hperform

end Runs

/-!
### The law

The law of the machine says of every operation when it succeeds and what it leaves. The
parts are stated one operation at a time, at the state a run reached.
-/

section Law

open Run

variable {ops : List AccessOp} {lease transfer : GameLease}

/-- The access after the operations, from a new one on. -/
def accessAfter (ops : List AccessOp) : GameAccess := final leaseStep {} ops

/-- The answer to one more operation. -/
def answerTo (ops : List AccessOp) (op : AccessOp) : Except PyError (Option GameLease) :=
  (leaseStep (accessAfter ops) op).2

/-- The lease may be used after the operations. -/
def MayUse (ops : List AccessOp) (lease : GameLease) : Prop :=
  (accessAfter ops).validateCurrent lease = .ok ()

/-- The hand-off is the one that was begun after the given operations, and nothing has
    changed the access since. -/
def BegunBy (ops : List AccessOp) (transfer : GameLease) (before : List AccessOp) : Prop :=
  ∃ lease rest, ops = before ++ .begin lease :: rest ∧
    answerTo before (.begin lease) = .ok (some transfer) ∧
    accessAfter ops = accessAfter (before ++ [.begin lease])

/-- What the machine promises after a sequence of operations. -/
structure LeaseLaw (ops : List AccessOp) : Prop where
  /-- At most one lease may be used, -/
  one : ∀ lease lease', MayUse ops lease → MayUse ops lease' → lease = lease'
  /-- and it was issued. -/
  issued : ∀ lease, MayUse ops lease → lease ∈ issuedBy ops
  ordered : (issuedBy ops).Pairwise fun earlier later => earlier.generation < later.generation
  /-- An operation that raises changes nothing. -/
  raised : ∀ op error, answerTo ops op = .error error →
    accessAfter (ops ++ [op]) = accessAfter ops
  /-- The game is changed with the lease that may be used, any number of times. -/
  used : ∀ lease, (MayUse ops lease ↔ answerTo ops (.mutatingGame lease) = .ok none) ∧
    accessAfter (ops ++ [.mutatingGame lease]) = accessAfter ops
  /-- Every other operation that is carried out is of a new generation, -/
  grown : ∀ op given, ¬ op.Uses → answerTo ops op = .ok given →
    (accessAfter (ops ++ [op])).generation = (accessAfter ops).generation + 1
  /-- and no lease from before it may be used from then on. -/
  superseded : ∀ op given, ¬ op.Uses → answerTo ops op = .ok given →
    ∀ lease ∈ issuedBy ops, ∀ later, ¬ MayUse (ops ++ op :: later) lease
  /-- A lease that may not be used never may be again. -/
  behind : ∀ lease ∈ issuedBy ops, ¬ MayUse ops lease → ∀ later, ¬ MayUse (ops ++ later) lease
  /-- A claim is carried out, except during a hand-off and once poisoned. -/
  claimed : ∀ (holder : Nat) (side : Side), (accessAfter ops).state ≠ .transferring →
    (accessAfter ops).state ≠ .poisoned → ∃ lease,
      answerTo ops (.claim holder side) = .ok (some lease) ∧
        MayUse (ops ++ [.claim holder side]) lease ∧
        lease.holder = holder ∧ lease.state = side.leaseState
  /-- Exactly the lease that may be used can be released, -/
  released : ∀ lease, MayUse ops lease ↔ answerTo ops (.release lease) = .ok none
  /-- and begins a hand-off, -/
  begun : ∀ lease, MayUse ops lease ↔
    ∃ transfer, answerTo ops (.begin lease) = .ok (some transfer)
  /-- which can be committed to either side and any holder, and rolled back. -/
  completes : ∀ lease transfer, answerTo ops (.begin lease) = .ok (some transfer) →
    (accessAfter (ops ++ [.begin lease])).state = .transferring ∧
    (∀ (side : Side) (holder : Nat), ∃ given,
      answerTo (ops ++ [.begin lease]) (.commit transfer side.leaseState holder) =
          .ok (some given) ∧
        MayUse (ops ++ [.begin lease] ++ [.commit transfer side.leaseState holder]) given ∧
        given.holder = holder ∧ given.state = side.leaseState) ∧
    ∃ given, answerTo (ops ++ [.begin lease]) (.rollback transfer) = .ok (some given)
  /-- What is committed is the hand-off under way. -/
  committed : ∀ transfer target holder given,
    answerTo ops (.commit transfer target holder) = .ok given →
      ∃ before, BegunBy ops transfer before
  /-- What is rolled back is too, and everything is as it was before it, but for the
      generation. -/
  rolledBack : ∀ transfer given, answerTo ops (.rollback transfer) = .ok given →
    ∃ before restored, BegunBy ops transfer before ∧ given = some restored ∧
      MayUse (ops ++ [.rollback transfer]) restored ∧
      (accessAfter (ops ++ [.rollback transfer])).state = (accessAfter before).state ∧
      (accessAfter (ops ++ [.rollback transfer])).holder = (accessAfter before).holder
  /-- Nobody may change the game during a hand-off, or once it is poisoned. -/
  transferring : (accessAfter ops).state = .transferring → ∀ lease, ¬ MayUse ops lease
  poisoned : ∀ later lease, ¬ MayUse (ops ++ .poison :: later) lease

theorem mayUse_iff : MayUse ops lease ↔ (accessAfter ops).Current lease :=
  GameAccess.validateCurrent_eq_ok

theorem accessAfter_concat (ops : List AccessOp) (op : AccessOp) :
    accessAfter (ops ++ [op]) = (leaseStep (accessAfter ops) op).1 := final_concat _ _ _ _

theorem accessAfter_append (ops later : List AccessOp) :
    accessAfter (ops ++ later) = final leaseStep (accessAfter ops) later := final_append _ _ _ _

theorem originLawful_after (ops : List AccessOp) : OriginLawful (accessAfter ops) :=
  originLawful_final {} originLawful_new ops

theorem perform_of_answerTo {op : AccessOp} {given : Option GameLease}
    (h : answerTo ops op = .ok given) :
    op.perform (accessAfter ops) = .ok (given, accessAfter (ops ++ [op])) := by
  rw [accessAfter_concat]
  exact perform_of_answer h

theorem answerTo_of_perform {op : AccessOp} {given : Option GameLease} {access' : GameAccess}
    (h : op.perform (accessAfter ops) = .ok (given, access')) :
    answerTo ops op = .ok given ∧ accessAfter (ops ++ [op]) = access' := by
  rw [accessAfter_concat]
  unfold answerTo leaseStep
  rw [h]
  exact ⟨rfl, rfl⟩

theorem accessAfter_of_error {op : AccessOp} {error : PyError}
    (h : answerTo ops op = .error error) : accessAfter (ops ++ [op]) = accessAfter ops := by
  rw [accessAfter_concat]
  unfold answerTo leaseStep at h
  unfold leaseStep
  cases hperform : op.perform (accessAfter ops) with
  | error error => rfl
  | ok done =>
      rw [hperform] at h
      cases h

/-- Another operation than the use of the game is of a new generation. -/
theorem generation_of_answer {op : AccessOp} {given : Option GameLease} (hop : ¬ op.Uses)
    (h : answerTo ops op = .ok given) :
    (accessAfter (ops ++ [op])).generation = (accessAfter ops).generation + 1 := by
  rcases perform_cases (originLawful_after ops) (perform_of_answerTo h) with
    ⟨lease, rfl, -⟩ | ⟨hgeneration, -⟩
  · exact absurd trivial hop
  · exact hgeneration

/-- A lease that may be used was issued. -/
theorem issued_of_mayUse (h : MayUse ops lease) : lease ∈ issuedBy ops := by
  rw [mayUse_iff] at h
  induction ops using List.reverseRecOn with
  | nil =>
      have hholder := h.2.2.2.1
      cases hholder
  | append_singleton before op ih =>
      have hissued : issuedBy (before ++ [op]) =
          issuedBy before ++ issuedAmong [answerTo before op] := by
        unfold issuedBy
        rw [outputs_concat, issuedAmong_append]
        rfl
      rw [hissued, List.mem_append]
      cases hanswer : answerTo before op with
      | error error =>
          rw [accessAfter_of_error hanswer] at h
          exact .inl (ih h)
      | ok given =>
          rcases holder_of_perform (perform_of_answerTo hanswer) with hsame | hgiven
          · rw [hsame] at h
            exact .inl (ih h)
          · -- The operation has given the lease.
            rcases h with ⟨-, hstate, hgeneration, hholder, hside⟩
            rw [hgiven lease.holder hholder hstate, ← hgeneration, ← hside]
            exact .inr List.mem_cons_self

/-- A lease from before an operation that is carried out may not be used after it. -/
theorem not_mayUse_after {op : AccessOp} {given : Option GameLease} (hop : ¬ op.Uses)
    (h : answerTo ops op = .ok given) (hlease : lease ∈ issuedBy ops) (later : List AccessOp) :
    ¬ MayUse (ops ++ op :: later) lease := by
  have hbounded := (issuedBy_ordered ops).2 lease hlease
  have hgeneration := generation_of_answer hop h
  have hbehind : lease.generation < (accessAfter (ops ++ [op])).generation := by
    rw [hgeneration]
    exact Nat.lt_succ_of_le hbounded
  rw [mayUse_iff, List.append_cons, accessAfter_append]
  exact never_current_again (originLawful_after _) (Nat.le_of_lt hbehind)
    (fun hcurrent => absurd hcurrent.2.2.1 (Nat.ne_of_lt hbehind)) later

/-- After it was begun, a hand-off is under way. -/
theorem transferring_of_begin (h : answerTo ops (.begin lease) = .ok (some transfer)) :
    (accessAfter ops).Current lease ∧
      (accessAfter (ops ++ [.begin lease])).Transferring transfer lease.state := by
  rcases (Except.map_eq_ok _ _ _).mp (perform_of_answerTo h) with ⟨done, hbegin, heq⟩
  rcases done with ⟨issued, access'⟩
  simp only [Prod.mk.injEq, Option.some.injEq] at heq
  rcases heq with ⟨rfl, haccess⟩
  rcases GameAccess.begin_eq_ok hbegin with ⟨hcurrent, hunder, -⟩
  exact ⟨hcurrent, haccess ▸ hunder⟩

theorem holder_of_begin (h : answerTo ops (.begin lease) = .ok (some transfer)) :
    transfer.holder = lease.holder := by
  rcases (Except.map_eq_ok _ _ _).mp (perform_of_answerTo h) with ⟨done, hbegin, heq⟩
  rcases done with ⟨issued, access'⟩
  simp only [Prod.mk.injEq, Option.some.injEq] at heq
  rcases heq with ⟨rfl, -⟩
  exact (GameAccess.begin_eq_ok hbegin).2.2

/-- A hand-off under way was begun, and nothing has changed the access since. -/
theorem begunBy_of_transferring {origin : LeaseState}
    (h : (accessAfter ops).Transferring transfer origin) :
    ∃ before, BegunBy ops transfer before ∧ (accessAfter before).state = origin ∧
      (accessAfter before).holder = some transfer.holder := by
  induction ops using List.reverseRecOn with
  | nil => cases h.1
  | append_singleton before op ih =>
      -- What left the access as it was is among the rest.
      have hkept : accessAfter (before ++ [op]) = accessAfter before →
          ∃ earlier, BegunBy (before ++ [op]) transfer earlier ∧
            (accessAfter earlier).state = origin ∧
            (accessAfter earlier).holder = some transfer.holder := by
        intro hsame
        rw [hsame] at h
        rcases ih h with ⟨earlier, ⟨lease, rest, rfl, hbegin, hafter⟩, horigin⟩
        exact ⟨earlier, ⟨lease, rest ++ [op], by simp, hbegin, hsame.trans hafter⟩, horigin⟩
      cases hanswer : answerTo before op with
      | error error => exact hkept (accessAfter_of_error hanswer)
      | ok given =>
          have hperform := perform_of_answerTo hanswer
          rcases perform_cases (originLawful_after before) hperform with
            ⟨lease, -, -, -, hsame⟩ | ⟨-, -, -, hbegun⟩
          · exact hkept hsame
          · rcases hbegun h.1 with ⟨lease, rfl, hcurrent⟩
            rcases (Except.map_eq_ok _ _ _).mp hperform with ⟨done, -, heq⟩
            rcases done with ⟨issued, access'⟩
            simp only [Prod.mk.injEq] at heq
            rcases heq with ⟨rfl, -⟩
            rcases h.unique (transferring_of_begin hanswer).2 with ⟨rfl, rfl⟩
            refine ⟨before, ⟨lease, [], rfl, hanswer, rfl⟩, hcurrent.2.2.2.2.symm, ?_⟩
            rw [hcurrent.2.2.2.1, holder_of_begin hanswer]

/-- One lease may be used. -/
theorem mayUse_unique {lease' : GameLease} (h : MayUse ops lease) (h' : MayUse ops lease') :
    lease = lease' := by
  rcases mayUse_iff.mp h with ⟨-, -, hgeneration, hholder, hstate⟩
  rcases mayUse_iff.mp h' with ⟨-, -, hgeneration', hholder', hstate'⟩
  rcases lease with ⟨holder, state, generation⟩
  rcases lease' with ⟨holder', state', generation'⟩
  rw [hholder] at hholder'
  cases hholder'
  dsimp only at hgeneration hgeneration' hstate hstate'
  rw [hgeneration, hgeneration', hstate, hstate']

/-- A mutation is allowed to whoever holds the lease in use, and leaves everything as it is. -/
theorem answerTo_mutatingGame (ops : List AccessOp) (lease : GameLease) :
    (MayUse ops lease ↔ answerTo ops (.mutatingGame lease) = .ok none) ∧
      accessAfter (ops ++ [.mutatingGame lease]) = accessAfter ops := by
  unfold MayUse
  cases hvalid : (accessAfter ops).validateCurrent lease with
  | error error =>
      have hperform : (AccessOp.mutatingGame lease).perform (accessAfter ops) = .error error := by
        rw [AccessOp.perform, hvalid]
        rfl
      have hanswer : answerTo ops (.mutatingGame lease) = .error error := by
        unfold answerTo leaseStep
        rw [hperform]
      exact ⟨by rw [hanswer]; simp, accessAfter_of_error hanswer⟩
  | ok u =>
      have hperform : (AccessOp.mutatingGame lease).perform (accessAfter ops) =
          .ok (none, accessAfter ops) := by
        rw [AccessOp.perform, hvalid]
        rfl
      rcases answerTo_of_perform hperform with ⟨hanswer, hafter⟩
      exact ⟨iff_of_true rfl hanswer, hafter⟩

/-- Outside of a transfer, and of a poisoned machine, a claim succeeds, and its lease is the one
    in use. -/
theorem answerTo_claim (holder : Nat) (side : Side)
    (htransferring : (accessAfter ops).state ≠ .transferring)
    (hpoisoned : (accessAfter ops).state ≠ .poisoned) :
    ∃ lease, answerTo ops (.claim holder side) = .ok (some lease) ∧
      MayUse (ops ++ [.claim holder side]) lease ∧
      lease.holder = holder ∧ lease.state = side.leaseState := by
  rcases GameAccess.claim_of_open hpoisoned htransferring holder side.leaseState with
    ⟨lease, access', hclaim⟩
  have hperform : (AccessOp.claim holder side).perform (accessAfter ops) =
      .ok (some lease, access') := by
    rw [AccessOp.perform, hclaim]
    rfl
  rcases answerTo_of_perform hperform with ⟨hanswer, hafter⟩
  rcases GameAccess.current_of_claim side.run_or_combat hclaim with ⟨hcurrent, hholder, hstate⟩
  refine ⟨lease, hanswer, mayUse_iff.mpr ?_, hholder, hstate⟩
  rwa [hafter]

theorem mayUse_iff_release : MayUse ops lease ↔ answerTo ops (.release lease) = .ok none := by
  constructor
  · intro h
    rcases GameAccess.release_of_current (mayUse_iff.mp h) with ⟨access', hrelease⟩
    have hperform : (AccessOp.release lease).perform (accessAfter ops) =
        .ok (none, access') := by
      rw [AccessOp.perform, hrelease]
      rfl
    exact (answerTo_of_perform hperform).1
  · intro h
    rcases (Except.map_eq_ok _ _ _).mp (perform_of_answerTo h) with ⟨after, hafter, -⟩
    rcases (Except.map_eq_ok _ _ _).mp hafter with ⟨u, hvalid, -⟩
    exact hvalid

theorem mayUse_iff_begin :
    MayUse ops lease ↔ ∃ transfer, answerTo ops (.begin lease) = .ok (some transfer) := by
  constructor
  · intro h
    rcases GameAccess.begin_of_current (mayUse_iff.mp h) with ⟨transfer, access', hbegin, -⟩
    have hperform : (AccessOp.begin lease).perform (accessAfter ops) =
        .ok (some transfer, access') := by
      rw [AccessOp.perform, hbegin]
      rfl
    exact ⟨transfer, (answerTo_of_perform hperform).1⟩
  · rintro ⟨transfer, h⟩
    rcases (Except.map_eq_ok _ _ _).mp (perform_of_answerTo h) with ⟨done, hbegin, -⟩
    exact mayUse_iff.mpr (GameAccess.begin_eq_ok hbegin).1

/-- A commit ends the transfer that was begun, with a lease for the side it names. -/
theorem answerTo_commit (h : answerTo ops (.begin lease) = .ok (some transfer)) (side : Side)
    (holder : Nat) :
    ∃ given, answerTo (ops ++ [.begin lease]) (.commit transfer side.leaseState holder) =
        .ok (some given) ∧
      MayUse (ops ++ [.begin lease] ++ [.commit transfer side.leaseState holder]) given ∧
      given.holder = holder ∧ given.state = side.leaseState := by
  rcases GameAccess.commit_of_transferring (transferring_of_begin h).2 side.run_or_combat with
    ⟨given, access', hcommit, hcurrent, hholder, hstate⟩
  have hperform : (AccessOp.commit transfer side.leaseState holder).perform
      (accessAfter (ops ++ [.begin lease])) = .ok (some given, access') := by
    rw [AccessOp.perform, hcommit]
    rfl
  rcases answerTo_of_perform hperform with ⟨hanswer, hafter⟩
  refine ⟨given, hanswer, mayUse_iff.mpr ?_, hholder, hstate⟩
  rwa [hafter]

theorem answerTo_rollback (h : answerTo ops (.begin lease) = .ok (some transfer)) :
    ∃ given, answerTo (ops ++ [.begin lease]) (.rollback transfer) = .ok (some given) := by
  rcases transferring_of_begin h with ⟨hcurrent, hunder⟩
  have hside : lease.state = .run ∨ lease.state = .combat := by
    rw [hcurrent.2.2.2.2]
    exact hcurrent.side
  rcases GameAccess.rollback_of_transferring hunder hside with ⟨given, access', hrollback, -⟩
  have hperform : (AccessOp.rollback transfer).perform
      (accessAfter (ops ++ [.begin lease])) = .ok (some given, access') := by
    rw [AccessOp.perform, hrollback]
    rfl
  exact ⟨given, (answerTo_of_perform hperform).1⟩

theorem begunBy_of_commit {target : LeaseState} {holder : Nat} {given : Option GameLease}
    (h : answerTo ops (.commit transfer target holder) = .ok given) :
    ∃ before, BegunBy ops transfer before := by
  rcases (Except.map_eq_ok _ _ _).mp (perform_of_answerTo h) with ⟨done, hcommit, -⟩
  unfold GameAccess.commit at hcommit
  split at hcommit
  · cases hcommit
  · rename_i origin hvalid
    rcases begunBy_of_transferring (GameAccess.validateTransfer_eq_ok hvalid).1 with
      ⟨before, hbegun, -⟩
    exact ⟨before, hbegun⟩

/-- What a rollback gives back is what the hand-off was begun from. -/
theorem restored_of_rollback {given : Option GameLease}
    (h : answerTo ops (.rollback transfer) = .ok given) :
    ∃ before restored, BegunBy ops transfer before ∧ given = some restored ∧
      MayUse (ops ++ [.rollback transfer]) restored ∧
      (accessAfter (ops ++ [.rollback transfer])).state = (accessAfter before).state ∧
      (accessAfter (ops ++ [.rollback transfer])).holder = (accessAfter before).holder := by
  rcases (Except.map_eq_ok _ _ _).mp (perform_of_answerTo h) with ⟨done, hrollback, heq⟩
  rcases done with ⟨restored, access'⟩
  simp only [Prod.mk.injEq] at heq
  rcases heq with ⟨rfl, haccess⟩
  rcases (Except.map_eq_ok _ _ _).mp hrollback with ⟨origin, hvalid, hdone⟩
  rcases GameAccess.validateTransfer_eq_ok hvalid with ⟨hunder, horigin⟩
  rcases begunBy_of_transferring hunder with ⟨before, hbegun, hstate, hholder⟩
  rcases GameAccess.rollback_of_transferring hunder
    (originLawful_after ops origin horigin) with ⟨lease, after, hrolled, hcurrent, -⟩
  rw [hrolled] at hrollback
  cases hrollback
  refine ⟨before, restored, hbegun, rfl, mayUse_iff.mpr (haccess ▸ hcurrent), ?_, ?_⟩
  · rw [← haccess, hstate]
    cases hdone
    rfl
  · rw [← haccess, hholder]
    cases hdone
    have hsame := hunder.2.2.2
    rw [horigin, Option.some.injEq] at hsame
    rw [hsame]

/-- The machine keeps the law, whatever the operations and the leases they present. -/
theorem lease_machine_law (ops : List AccessOp) : LeaseLaw ops where
  one _ _ h h' := mayUse_unique h h'
  issued _ h := issued_of_mayUse h
  ordered := (issuedBy_ordered ops).1
  raised _ _ h := accessAfter_of_error h
  used lease := answerTo_mutatingGame ops lease
  grown _ _ hop h := generation_of_answer hop h
  superseded _ _ hop h _ hlease later := not_mayUse_after hop h hlease later
  behind lease hlease hstale later := by
    rw [mayUse_iff] at hstale ⊢
    rw [accessAfter_append]
    exact never_current_again (originLawful_after ops) ((issuedBy_ordered ops).2 lease hlease)
      hstale later
  claimed holder side htransferring hpoisoned :=
    answerTo_claim holder side htransferring hpoisoned
  released _ := mayUse_iff_release
  begun _ := mayUse_iff_begin
  completes _ _ h :=
    ⟨(transferring_of_begin h).2.1, answerTo_commit h, answerTo_rollback h⟩
  committed _ _ _ _ h := begunBy_of_commit h
  rolledBack _ _ h := restored_of_rollback h
  transferring hstate _ h := (mayUse_iff.mp h).2.1 hstate
  poisoned later lease h := by
    have hcurrent := mayUse_iff.mp h
    rw [List.append_cons, accessAfter_append, accessAfter_concat] at hcurrent
    exact hcurrent.1 (poisoned_final _ rfl later)

/-- A run claims the game and hands it off. A combat that claims it meanwhile is refused,
    and the hand-off is rolled back. Then the first lease is tried again, and the game is
    released. -/
def handOff : List AccessOp :=
  [.claim 0 .run, .begin ⟨0, .run, 1⟩, .claim 1 .combat, .rollback ⟨0, .transferring, 2⟩,
    .mutatingGame ⟨0, .run, 1⟩, .release ⟨0, .run, 3⟩]

/-- Three leases were issued, and none of them may be used again. Until the release, the
    last one could be. -/
theorem lease_machine_small :
    issuedBy handOff = [⟨0, .run, 1⟩, ⟨0, .transferring, 2⟩, ⟨0, .run, 3⟩] ∧
      MayUse (handOff.take 5) ⟨0, .run, 3⟩ ∧
      ∀ lease ∈ issuedBy handOff, ∀ later, ¬ MayUse (handOff ++ later) lease := by
  have hissued : issuedBy handOff = issuedBy (handOff.take 5) := by decide +kernel
  have hreleased : answerTo (handOff.take 5) (.release ⟨0, .run, 3⟩) = .ok none := by
    decide +kernel
  have hother : ¬ (AccessOp.release ⟨0, .run, 3⟩).Uses := fun h => h
  refine ⟨by decide +kernel, ((lease_machine_law _).released _).mpr hreleased,
    fun lease hlease later => ?_⟩
  rw [hissued] at hlease
  exact (lease_machine_law (handOff.take 5)).superseded _ _ hother hreleased lease hlease later

end Law

end WholeRun

end STS2RL
