import STS2RL.Api.Validation

/-!
# Game Access

One process has one game, and a lease is the right to change it. A hand-off
between the run and a combat goes through a state in which nobody may change the
game: it begins with the lease of the one, and is committed with a lease for the
other or rolled back.

Every change of the machine uses up a generation, so a lease that is no longer
current is recognized.

## Main definitions

* `GameLease`, `GameAccess`: A lease, and the machine that issues them.
* `GameAccess.validateCurrent`: Whether a lease may be used.
* `GameAccess.claim`, `release`, `begin`, `commit`, `rollback`, `poison`: The
  operations.

## Theorems

* `validateCurrent_eq_ok`, `validateTransfer_eq_ok`: Which leases are current.
* `claim_of_open`, `current_of_claim`: When a lease can be claimed.
* `begin_of_current`, `commit_of_transferring`, `rollback_of_transferring`: A
  hand-off that nothing comes between can be completed either way.
-/

namespace STS2RL

namespace WholeRun

open Api (PyError)

/-- Who may use the game. -/
inductive LeaseState where
  | run
  | combat
  | transferring
  | poisoned
  deriving DecidableEq, Repr

/-- How a state is printed. -/
def LeaseState.text : LeaseState → String
  | run => "RUN"
  | combat => "COMBAT"
  | transferring => "TRANSFERRING"
  | poisoned => "POISONED"

/-- The right of one holder to change the game, in one generation. -/
structure GameLease where
  holder : Nat
  state : LeaseState
  generation : Nat
  deriving DecidableEq

/-- `GameAccess`: the lease, and where a transfer under way came from. -/
structure GameAccess where
  state : LeaseState := .run
  holder : Option Nat := none
  generation : Nat := 0
  transferOrigin : Option (LeaseState × Nat) := none
  deriving DecidableEq

/-- A `GameAccessError`. -/
def accessError (message : String) : PyError := .raised "GameAccessError" message

namespace GameAccess

variable (access : GameAccess)

/-- `claim`. Whoever held the lease before loses it. -/
def claim (holder : Nat) (state : LeaseState) : Except PyError (GameLease × GameAccess) :=
  if access.state = .poisoned then
    .error (accessError "Game access is POISONED; no mutation lease can be claimed.")
  else if access.state = .transferring then
    .error (accessError "Game access is TRANSFERRING; no mutation lease can be claimed.")
  else
    .ok (⟨holder, state, access.generation + 1⟩,
      { access with state, holder := some holder, generation := access.generation + 1 })

/-- `_validate_current`. -/
def validateCurrent (lease : GameLease) : Except PyError Unit :=
  if access.state = .poisoned then
    .error (accessError "Game access is POISONED; mutating access is terminally rejected.")
  else if access.state = .transferring then
    .error (accessError "Game access is TRANSFERRING; no holder may mutate it.")
  else if lease.generation ≠ access.generation ∨ some lease.holder ≠ access.holder ∨
      lease.state ≠ access.state then
    .error (accessError ("Rejected mutating access: lease is not the current holder/generation " ++
      "(state=" ++ access.state.text ++ ", generation=" ++ toString access.generation ++ ")."))
  else .ok ()

/-- `release`. -/
def release (lease : GameLease) : Except PyError GameAccess :=
  (access.validateCurrent lease).map fun _ =>
    { access with holder := none, generation := access.generation + 1 }

/-- `begin`. -/
def «begin» (lease : GameLease) : Except PyError (GameLease × GameAccess) :=
  (access.validateCurrent lease).map fun _ =>
    (⟨lease.holder, .transferring, access.generation + 1⟩,
      { access with
        transferOrigin := some (access.state, lease.holder)
        state := .transferring
        generation := access.generation + 1 })

/-- `_validate_transfer`, with where the transfer came from. -/
def validateTransfer (transfer : GameLease) : Except PyError (LeaseState × Nat) :=
  match access.transferOrigin with
  | some origin =>
      if access.state ≠ .transferring ∨ transfer.state ≠ .transferring ∨
          transfer.generation ≠ access.generation ∨ transfer.holder ≠ origin.2 then
        .error (accessError
          "Rejected transfer completion: lease is not the current TRANSFERRING generation.")
      else .ok origin
  | none => .error (accessError
      "Rejected transfer completion: lease is not the current TRANSFERRING generation.")

/-- `commit`. -/
def commit (transfer : GameLease) (target : LeaseState) (holder : Nat) :
    Except PyError (GameLease × GameAccess) :=
  match access.validateTransfer transfer with
  | .error error => .error error
  | .ok _ =>
      if target ≠ .run ∧ target ≠ .combat then
        .error (.raised "ValueError" "A transfer can only commit to RUN or COMBAT.")
      else
        .ok (⟨holder, target, access.generation + 1⟩,
          { state := target
            holder := some holder
            transferOrigin := none
            generation := access.generation + 1 })

/-- `rollback`. -/
def rollback (transfer : GameLease) : Except PyError (GameLease × GameAccess) :=
  (access.validateTransfer transfer).map fun origin =>
    (⟨origin.2, origin.1, access.generation + 1⟩,
      { state := origin.1
        holder := some origin.2
        transferOrigin := none
        generation := access.generation + 1 })

/-- `poison`. -/
def poison : GameAccess :=
  { state := .poisoned
    holder := none
    transferOrigin := none
    generation := access.generation + 1 }

section Validity

variable {access}

/-- The lease may be used: it is the last one that was issued. -/
def Current (access : GameAccess) (lease : GameLease) : Prop :=
  access.state ≠ .poisoned ∧ access.state ≠ .transferring ∧
    lease.generation = access.generation ∧ access.holder = some lease.holder ∧
    lease.state = access.state

theorem validateCurrent_eq_ok {lease : GameLease} :
    access.validateCurrent lease = .ok () ↔ access.Current lease := by
  unfold validateCurrent Current
  by_cases hpoisoned : access.state = .poisoned
  · simp [hpoisoned]
  · by_cases htransferring : access.state = .transferring
    · simp [htransferring]
    · rw [if_neg hpoisoned, if_neg htransferring]
      simp only [ne_eq, ite_eq_right_iff, reduceCtorEq, imp_false, not_or, Decidable.not_not,
        hpoisoned, htransferring, not_false_eq_true, true_and, @eq_comm _ access.holder]

/-- A lease that may be used is for one of the sides. -/
theorem Current.side {lease : GameLease} (h : access.Current lease) :
    access.state = .run ∨ access.state = .combat := by
  cases hstate : access.state with
  | run => exact .inl rfl
  | combat => exact .inr rfl
  | transferring => exact absurd hstate h.2.1
  | poisoned => exact absurd hstate h.1

/-- A current lease can be released. -/
theorem release_of_current {lease : GameLease} (h : access.Current lease) :
    ∃ access', access.release lease = .ok access' := by
  unfold release
  rw [validateCurrent_eq_ok.mpr h]
  exact ⟨_, rfl⟩

/-- A claim is refused only during a hand-off, and once the access is poisoned. -/
theorem claim_of_open (hpoisoned : access.state ≠ .poisoned)
    (htransferring : access.state ≠ .transferring) (holder : Nat) (state : LeaseState) :
    ∃ lease access', access.claim holder state = .ok (lease, access') := by
  unfold claim
  rw [if_neg hpoisoned, if_neg htransferring]
  exact ⟨_, _, rfl⟩

/-- The lease that a claim gives is current. -/
theorem current_of_claim {holder : Nat} {state : LeaseState} {lease : GameLease}
    {access' : GameAccess} (hstate : state = .run ∨ state = .combat)
    (h : access.claim holder state = .ok (lease, access')) :
    access'.Current lease ∧ lease.holder = holder ∧ lease.state = state := by
  unfold claim at h
  split at h
  · cases h
  · split at h
    · cases h
    · cases h
      rcases hstate with rfl | rfl <;> simp [Current]

/-- A hand-off has begun, from where it says. -/
def Transferring (access : GameAccess) (transfer : GameLease) (state : LeaseState) : Prop :=
  access.state = .transferring ∧ transfer.state = .transferring ∧
    transfer.generation = access.generation ∧ access.transferOrigin = some (state, transfer.holder)

/-- At most one hand-off is under way, from one origin. -/
theorem Transferring.unique {transfer transfer' : GameLease} {state state' : LeaseState}
    (h : access.Transferring transfer state) (h' : access.Transferring transfer' state') :
    transfer = transfer' ∧ state = state' := by
  rcases transfer with ⟨holder, side, generation⟩
  rcases transfer' with ⟨holder', side', generation'⟩
  rcases h with ⟨-, hside, hgeneration, horigin⟩
  rcases h' with ⟨-, hside', hgeneration', horigin'⟩
  rw [horigin] at horigin'
  cases horigin'
  dsimp only at hside hgeneration hside' hgeneration'
  rw [hside, hgeneration, hside', hgeneration']
  exact ⟨rfl, rfl⟩

/-- A current lease begins a hand-off. -/
theorem begin_of_current {lease : GameLease} (h : access.Current lease) :
    ∃ transfer access', access.begin lease = .ok (transfer, access') ∧
      access'.Transferring transfer lease.state ∧ transfer.holder = lease.holder := by
  refine ⟨⟨lease.holder, .transferring, access.generation + 1⟩,
    { access with
      transferOrigin := some (access.state, lease.holder)
      state := .transferring
      generation := access.generation + 1 }, ?_, ⟨rfl, rfl, rfl, ?_⟩, rfl⟩
  · unfold «begin»
    rw [validateCurrent_eq_ok.mpr h]
    rfl
  · rw [h.2.2.2.2]

/-- Only a current lease does. -/
theorem begin_eq_ok {lease transfer : GameLease} {access' : GameAccess}
    (h : access.begin lease = .ok (transfer, access')) :
    access.Current lease ∧ access'.Transferring transfer lease.state ∧
      transfer.holder = lease.holder := by
  unfold «begin» at h
  cases hvalid : access.validateCurrent lease with
  | error error =>
      rw [hvalid] at h
      cases h
  | ok u =>
      have hcurrent := validateCurrent_eq_ok.mp hvalid
      rw [hvalid] at h
      cases h
      exact ⟨hcurrent, ⟨rfl, rfl, rfl, by rw [hcurrent.2.2.2.2]⟩, rfl⟩

theorem validateTransfer_of_transferring {transfer : GameLease} {state : LeaseState}
    (h : access.Transferring transfer state) :
    access.validateTransfer transfer = .ok (state, transfer.holder) := by
  unfold validateTransfer
  rw [h.2.2.2]
  simp [h.1, h.2.1, h.2.2.1]

/-- Only the hand-off under way can be completed. -/
theorem validateTransfer_eq_ok {transfer : GameLease} {origin : LeaseState × Nat}
    (h : access.validateTransfer transfer = .ok origin) :
    access.Transferring transfer origin.1 ∧ access.transferOrigin = some origin := by
  unfold validateTransfer at h
  cases horigin : access.transferOrigin with
  | none =>
      rw [horigin] at h
      cases h
  | some origin' =>
      rw [horigin] at h
      dsimp only at h
      by_cases hinvalid : access.state ≠ .transferring ∨ transfer.state ≠ .transferring ∨
          transfer.generation ≠ access.generation ∨ transfer.holder ≠ origin'.2
      · rw [if_pos hinvalid] at h
        cases h
      · rw [if_neg hinvalid] at h
        cases h
        simp only [ne_eq, not_or, Decidable.not_not] at hinvalid
        rcases hinvalid with ⟨hstate, htransfer, hgeneration, hholder⟩
        refine ⟨⟨hstate, htransfer, hgeneration, ?_⟩, rfl⟩
        rw [horigin, hholder]

/-- A hand-off that has begun can be committed, -/
theorem commit_of_transferring {transfer : GameLease} {state target : LeaseState} {holder : Nat}
    (h : access.Transferring transfer state) (htarget : target = .run ∨ target = .combat) :
    ∃ lease access', access.commit transfer target holder = .ok (lease, access') ∧
      access'.Current lease ∧ lease.holder = holder ∧ lease.state = target := by
  refine ⟨⟨holder, target, access.generation + 1⟩,
    { state := target
      holder := some holder
      transferOrigin := none
      generation := access.generation + 1 }, ?_, ?_⟩
  · unfold commit
    rw [validateTransfer_of_transferring h]
    dsimp only
    rw [if_neg]
    rcases htarget with rfl | rfl <;> simp
  · rcases htarget with rfl | rfl <;> simp [Current]

/-- and rolled back. -/
theorem rollback_of_transferring {transfer : GameLease} {state : LeaseState}
    (h : access.Transferring transfer state) (hstate : state = .run ∨ state = .combat) :
    ∃ lease access', access.rollback transfer = .ok (lease, access') ∧
      access'.Current lease ∧ lease.holder = transfer.holder ∧ lease.state = state := by
  refine ⟨⟨transfer.holder, state, access.generation + 1⟩,
    { state := state
      holder := some transfer.holder
      transferOrigin := none
      generation := access.generation + 1 }, ?_, ?_⟩
  · unfold rollback
    rw [validateTransfer_of_transferring h]
    rfl
  · rcases hstate with rfl | rfl <;> simp [Current]

end Validity

end GameAccess

end WholeRun

end STS2RL
