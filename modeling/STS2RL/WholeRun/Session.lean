import STS2RL.Api.Masking
import STS2RL.Combat.DecisionContext
import STS2RL.WholeRun.EventRng
import STS2RL.WholeRun.GameAccess

/-!
# The Run Session

The calls by which an instance reads and changes the one game of its process,
and what it does with them before a player is asked again: reward screens that
leave no choice are played.

The emulator is a parameter. Each of its calls may fail, at any time, and may
change what it likes of the world `W` that it is in, so every pattern of
failures is a choice of the calls.

## Main definitions

* `Emulator`: The calls into the emulator.
* `Session`: The game with the lease under which the run changes it.
* `Session.mutatingGame`: The right to change the game, claimed when needed.
* `drainTrivialRewardFrontier`: The reward actions that are played for the player.
* `HistoryBuilder`: The rooms that were visited.
-/

namespace STS2RL

namespace WholeRun

open Api (PyError Fields)

/-- The boundaries of a run. -/
inductive RunBoundary where
  | runTerminal
  | pendingChoice
  | eventChoice
  | restChoice
  | shopChoice
  | rewardSelect
  | mapSelect
  | stable
  deriving DecidableEq, Repr

/-- A boundary's value. -/
def RunBoundary.text : RunBoundary → String
  | runTerminal => "run_terminal"
  | pendingChoice => "pending_choice"
  | eventChoice => "event_choice"
  | restChoice => "rest_choice"
  | shopChoice => "shop_choice"
  | rewardSelect => "reward_select"
  | mapSelect => "map_select"
  | stable => "stable"

/-- What the game shows between two actions. -/
structure Observation where
  boundary : RunBoundary
  outcome : String
  state : Fields

/-- A legal action of the run. `fields` is the whole record as it is published. -/
structure RunAction extends Combat.LegalAction where
  isAvailable : Bool
  fields : Fields

/-- A node of the map. -/
structure MapRoom where
  roomId : Int
  column : Int
  row : Int
  pointType : String

/-- The room the run is in. `fields` is the whole record as it is published. -/
structure RoomContext where
  inRoom : Bool
  roomType : Option String
  column : Option Int
  row : Option Int
  fields : Fields
  deriving DecidableEq

/-- The calls into the emulator. -/
structure Emulator (W : Type) where
  getObservation : Act PyError W Observation
  getLegalActions : Act PyError W (List RunAction)
  getMapRooms : Act PyError W (List MapRoom)
  getRoomContext : Act PyError W RoomContext
  getEventRngState : Act PyError W EventRngState
  saveState : Act PyError W String
  chooseRoom : Int → Act PyError W Unit
  step : Int → Act PyError W Unit
  enableGodMode : Act PyError W Unit
  startRun : Json → Json → Json → Act PyError W Unit

/-- The game and the lease of the run. -/
structure Session (W : Type) where
  world : W
  access : GameAccess := {}
  lease : Option GameLease := none

/-- `lease_holder` of the run. -/
def runHolder : Nat := 0

namespace Session

variable {W α : Type}

/-- A call that changes no more than the world. -/
def inWorld (call : Act PyError W α) : Act PyError (Session W) α :=
  Act.zoom Session.world (fun world session => { session with world }) call

/-- `_mutating_game`. -/
def mutatingGame : Act PyError (Session W) Unit := do
  let session ← Act.get
  match session.lease with
  | some lease => Act.ofExcept (session.access.validateCurrent lease)
  | none =>
      let (lease, access) ← Act.ofExcept (session.access.claim runHolder .run)
      Act.modify fun session => { session with access, lease := some lease }
      Act.ofExcept (access.validateCurrent lease)

variable (emulator : Emulator W)

/-- `choose_room`. -/
def chooseRoom (roomId : Int) : Act PyError (Session W) Unit := do
  mutatingGame
  inWorld (emulator.chooseRoom roomId)

/-- `step`. -/
def step (actionId : Int) : Act PyError (Session W) Unit := do
  mutatingGame
  inWorld (emulator.step actionId)

/-- `enable_god_mode_for_testing`. -/
def enableGodMode : Act PyError (Session W) Unit := do
  mutatingGame
  inWorld emulator.enableGodMode

/-- `start_run`. -/
def startRun (seed characterId ascension : Json) : Act PyError (Session W) Unit := do
  mutatingGame
  inWorld (emulator.startRun seed characterId ascension)

/-- `begin_lease_transfer`. -/
def beginLeaseTransfer : Act PyError (Session W) GameLease := do
  let session ← Act.get
  match session.lease with
  | some lease =>
      let (transfer, access) ← Act.ofExcept (session.access.begin lease)
      Act.modify fun session => { session with access, lease := none }
      pure transfer
  | none =>
      let (lease, access) ← Act.ofExcept (session.access.claim runHolder .run)
      Act.modify fun session => { session with access, lease := some lease }
      let (transfer, access) ← Act.ofExcept (access.begin lease)
      Act.modify fun session => { session with access, lease := none }
      pure transfer

/-- `commit_lease_transfer`. -/
def commitLeaseTransfer (transfer : GameLease) (target : LeaseState) (holder : Nat) :
    Act PyError (Session W) GameLease := do
  let session ← Act.get
  let (lease, access) ← Act.ofExcept (session.access.commit transfer target holder)
  Act.modify fun session => { session with access }
  pure lease

/-- `rollback_lease_transfer`. -/
def rollbackLeaseTransfer (transfer : GameLease) : Act PyError (Session W) Unit := do
  let session ← Act.get
  let (lease, access) ← Act.ofExcept (session.access.rollback transfer)
  Act.modify fun session => { session with access }
  Act.raiseIf (lease.state ≠ .run ∨ lease.holder ≠ runHolder)
    (accessError "transfer rollback did not return the WholeRunSession RUN lease")
  Act.modify fun session => { session with lease := some lease }

/-- `accept_transferred_lease`. -/
def acceptTransferredLease (lease : GameLease) : Act PyError (Session W) Unit := do
  Act.raiseIf (lease.state ≠ .run ∨ lease.holder ≠ runHolder)
    (accessError "WholeRunSession received a lease for the wrong holder/state")
  let session ← Act.get
  Act.ofExcept (session.access.validateCurrent lease)
  Act.modify fun session => { session with lease := some lease }

/-- `poison_mutations`. -/
def poisonMutations (session : Session W) : Session W :=
  { session with access := session.access.poison, lease := none }

/-- `close`. A lease that is no longer current is left alone. -/
def close (session : Session W) : Session W :=
  match session.lease with
  | none => session
  | some lease =>
      match session.access.release lease with
      | .error _ => { session with lease := none }
      | .ok access => { session with access, lease := none }

end Session

section Drain

variable {W : Type} (emulator : Emulator W)

/-- The reward actions that leave no choice. -/
def trivialTakes (legalActions : List RunAction) : List RunAction :=
  legalActions.filter fun action =>
    action.isAvailable ∧ action.actionType = "choice_reward_potion_take"

/-- `max_auto_actions`. -/
def maxAutoActions : Nat := 32

/-- The error of a screen on which several potions could be taken unasked. -/
def pluralTakes (takes : List RunAction) : PyError :=
  .raised "RuntimeError"
    ("Emulator published multiple trivial Potion TAKE actions at one reward_select boundary: [" ++
      ", ".intercalate (takes.map fun action => toString action.actionId) ++ "]")

/-- The error of rewards that do not come to an end. -/
def drainExceeded (consumed : List Int) : PyError :=
  .raised "RuntimeError" ("trivial reward auto-drain exceeded safety cap " ++
    toString maxAutoActions ++ "; consumed=[" ++ ", ".intercalate (consumed.map toString) ++ "]")

/-- The takes at the reward screen, or none elsewhere. -/
def takesNow : Act PyError (Session W) (List RunAction) := do
  let observation ← Session.inWorld emulator.getObservation
  if observation.boundary ≠ .rewardSelect then pure []
  else
    let legalActions ← Session.inWorld emulator.getLegalActions
    pure (trivialTakes legalActions)

/-- The rounds that are left, after what was consumed. -/
def drainRounds : Nat → List Int → Act PyError (Session W) (List Int)
  | 0, consumed => do
      let takes ← takesNow emulator
      Act.raiseIf (takes ≠ []) (drainExceeded consumed)
      pure consumed
  | rounds + 1, consumed => do
      let takes ← takesNow emulator
      match takes with
      | [] => pure consumed
      | [take] =>
          Session.step emulator take.actionId
          drainRounds rounds (consumed ++ [take.actionId])
      | takes => Act.raise (pluralTakes takes)

/-- `drain_trivial_reward_frontier`. -/
def drainTrivialRewardFrontier : Act PyError (Session W) (List Int) :=
  drainRounds emulator maxAutoActions []

end Drain

/-- `HistoryEntry`, of the kinds an instance records. -/
structure HistoryEntry where
  kind : String
  column : Int
  row : Int
  roomType : Option String
  deriving DecidableEq

/-- A text or `None`. -/
def textOrNone : Option String → Json
  | none => .null
  | some text => .str (.text text)

/-- `to_public_dict`. -/
def HistoryEntry.toPublicDict (entry : HistoryEntry) : Fields :=
  [("kind", .str (.text entry.kind)), ("column", .int entry.column), ("row", .int entry.row),
    ("room_type", textOrNone entry.roomType)]

/-- `HistoryBuilder`. A fork is a copy, so it needs no operation here. -/
structure HistoryBuilder where
  entries : List HistoryEntry := []
  seenCoordinates : Finset (Int × Int) := ∅
  deriving DecidableEq

namespace HistoryBuilder

/-- `observe_room_context`. -/
def observeRoomContext (history : HistoryBuilder) (roomContext : RoomContext) : HistoryBuilder :=
  if roomContext.inRoom then
    match roomContext.column, roomContext.row with
    | some column, some row =>
        if (column, row) ∈ history.seenCoordinates then history
        else
          { seenCoordinates := insert (column, row) history.seenCoordinates
            entries := history.entries ++
              ⟨"room_visited", column, row, roomContext.roomType⟩ ::
              (if roomContext.roomType = some "Elite" ∨ roomContext.roomType = some "Boss" then
                [⟨"elite_or_boss", column, row, roomContext.roomType⟩]
              else []) }
    | _, _ => history
  else history

/-- `to_public_list`. -/
def toPublicList (history : HistoryBuilder) : Json :=
  .list (history.entries.map fun entry => .obj entry.toPublicDict)

end HistoryBuilder

end WholeRun

end STS2RL
