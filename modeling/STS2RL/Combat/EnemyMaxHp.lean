import STS2RL.Core.Dict
import STS2RL.Core.Run

/-!
# Maximum HP Remembered by Index

A restored combat may report an enemy's current HP as its maximum, so the
emulator remembers every enemy's maximum at the start of a combat and writes it
over what each later observation reports. The memory is a dictionary from the
engine's `index`, and the index is the enemy's place in the list the engine
enumerates. When an enemy dies the engine takes it off the list and everyone
behind it moves up a place, so from then on an index may name somebody else.

The file models the override with both of its users: the standalone emulator,
which restores a state before each action, and the live session, which steps the
game where it stands and restores only when something else has touched it. Every
state handed out is kept and may be stepped again, so a run is a tree of combats
on one shared game. Which enemy a creature is, and whose maximum a number is, are
ghosts: no function branches on them.

One step decides what becomes of the attribution. An engine's reaction lists who
stands where after the action: somebody who stood at some place before, or a
newcomer. A remembered number stays with its enemy exactly when every remembered
index is left to the enemy that stood there, or to nobody (`KeepsPlaces`): no
remembered enemy may die while somebody behind it lives, and nobody may join at
the place of a remembered enemy that is dead.

## Main definitions

* `override`, `wrap`: The observation with the remembered maxima written over it.
* `recordMaxHps`, `adoptMaxHps`: What a start and an adoption remember.
* `restore`: The game rebuilt from a state.
* `Reaction.after`: Who stands where after an action.
* `stepLiveAction`, `perform`: One action, and one call of either user.
* `Attributed`: Every reported maximum belongs to the enemy it is reported for.
* `KeepsPlaces`: The step leaves every remembered index to its enemy.
* `Tracked`: What is true of a state whose numbers are in place.

## Theorems

* `getElem?_wrap`: What a wrapped state reports at each place.
* `tracked_wrap`: A state is tracked when the numbers match the places.
* `placed_after`: A reaction that keeps the places keeps the numbers matched.
* `not_own_of_moved`: A reaction that does not reports somebody else's number.
* `inv_perform`: Every call that keeps the places keeps the invariant.
* `attributed_iff_keepsPlaces`: The numbers are right exactly along the runs that
  keep the places.
-/

namespace STS2RL

namespace Combat

namespace EnemyMaxHp

/-- A maximum HP, with the enemy it was read off (ghost). -/
structure MaxHp where
  amount : Int
  owner : Nat
  deriving DecidableEq, Repr

/-- A living enemy of the engine's list. Which enemy of the run it is is a ghost. -/
structure Creature where
  identity : Nat
  hp : Int
  maxHp : MaxHp
  deriving DecidableEq, Repr

/-- An entry of `state["enemies"]`. The engine lists the living only, so that a restore,
    which passes over entries that are not `isAlive`, takes all of them. -/
structure EnemyRow where
  index : Nat
  identity : Nat
  hp : Int
  maxHp : Option MaxHp
  deriving DecidableEq, Repr

/-- The `enemy_max_hps` dictionary of a battle state. -/
abbrev EnemyMaxHps := Dict Nat (Option MaxHp)

/-- What of an observation `_wrap` reads. The combat session id and the step index
    that make a decision frame are one number. -/
structure Observation where
  enemies : List EnemyRow
  isTerminal : Bool
  decisionFrame : Nat

/-- What the emulator returns, as far as maxima are concerned. -/
structure BattleState where
  enemies : List EnemyRow
  isTerminal : Bool
  enemyMaxHps : EnemyMaxHps
  decisionFrame : Nat

/-- The remembered maximum of the index, where one is remembered. -/
def override (enemyMaxHps : EnemyMaxHps) (enemy : EnemyRow) : EnemyRow :=
  match (enemyMaxHps.get? enemy.index).join with
  | some trueMax => { enemy with maxHp := some trueMax }
  | none => enemy

/-- `_state_has_living_enemies`. -/
def stateHasLivingEnemies (enemies : List EnemyRow) : Bool := enemies.any fun e => 0 < e.hp

/-- `BattleEmulator._wrap`. An observation without living enemies is terminal
    whatever the engine says. -/
def wrap (obs : Observation) (enemyMaxHps : EnemyMaxHps) : BattleState where
  enemies := obs.enemies.map (override enemyMaxHps)
  isTerminal := obs.isTerminal || !stateHasLivingEnemies obs.enemies
  enemyMaxHps := enemyMaxHps
  decisionFrame := obs.decisionFrame

/-- `{e["index"]: e["maxHp"] for e in state["enemies"]}`. -/
def recordMaxHps (enemies : List EnemyRow) : EnemyMaxHps :=
  enemies.foldl (fun d e => d.set e.index e.maxHp) Dict.empty

/-- The same in `adopt_current_combat`, where an enemy without a maximum is passed
    over. -/
def adoptMaxHps (enemies : List EnemyRow) : EnemyMaxHps :=
  enemies.foldl (fun d e => if e.maxHp.isSome then d.set e.index e.maxHp else d) Dict.empty

/-!
### The game

The enemies of a combat with the identity each has, which nobody outside the game can see,
and the reactions in which enemies die, leave their places and are joined by others.
-/

section Engine

/-- The engine's `index` is the place in its list of the living. -/
def rowsOf (creatures : List Creature) : List EnemyRow :=
  creatures.mapIdx fun i c => ⟨i, c.identity, c.hp, some c.maxHp⟩

/-- The enemies of a new combat, given as HP and maximum HP. -/
def mint (next : Nat) (spec : List (Int × Int)) : List Creature :=
  spec.mapIdx fun i e => ⟨next + i, e.1, ⟨e.2, next + i⟩⟩

/-- Who stands at a place after an action: an enemy of one of the `n` places
    before it, with its HP and what its maximum gained, or a newcomer. -/
inductive Standing (n : Nat) where
  | stays (place : Fin n) (hp : Int) (gain : Int)
  | joins (hp : Int) (maxHp : Int)

namespace Standing

variable {n : Nat}

/-- The place before the action. -/
def place? : Standing n → Option Nat
  | stays place _ _ => some place
  | joins _ _ => none

/-- Two enemies that were there already are still in the order they were in. -/
def Before (x y : Standing n) : Prop :=
  ∀ p, x.place? = some p → ∀ q, y.place? = some q → p < q

/-- The creature that stands in a place after an action. -/
def creature (next : Nat) (who : Fin n → Creature) (i : Nat) : Standing n → Creature
  | stays place hp gain =>
      let c := who place
      ⟨c.identity, hp, ⟨c.maxHp.amount + gain, c.maxHp.owner⟩⟩
  | joins hp maxHp => ⟨next + i, hp, ⟨maxHp, next + i⟩⟩

end Standing

/-- What an action comes to: who stands where afterwards, survivors in their old
    order and the dead left out, whether the observation says the combat is over,
    and whether the engine has left the combat. -/
structure Reaction where
  enemies : Nat
  standing : List (Standing enemies)
  ordered : standing.Pairwise Standing.Before
  isTerminal : Bool
  concludes : Bool

/-- The engine's list after the action. -/
def Reaction.after (r : Reaction) (next : Nat) (creatures : List Creature)
    (h : r.enemies = creatures.length) : List Creature :=
  r.standing.mapIdx fun i x => x.creature next (fun p => creatures.get (p.cast h)) i

/-- The shared game: the combat it is in, if it is in one, and its decision frame,
    which every reset and every step renews. -/
structure Game where
  combat : Option (List Creature)
  decisionFrame : Nat

/-- `ResetFromScenario` of `build_scenario_from_state`: one enemy for each entry, in
    order. Whether the engine takes the scenario's maximum or starts from the HP it
    is given is a parameter. No enemies is an error. -/
def restore (takesMaxHp : Bool) (state : BattleState) (game : Game) : Option Game :=
  match state.enemies with
  | [] => none
  | enemies =>
      some ⟨some (enemies.map fun e =>
        let hp := max 1 e.hp
        ⟨e.identity, hp,
          match takesMaxHp, e.maxHp with
          | true, some maxHp => maxHp
          | _, _ => ⟨hp, e.identity⟩⟩), game.decisionFrame + 1⟩

end Engine

/-- The game, the enemies met so far, and every state handed out. -/
structure Machine where
  game : Game
  next : Nat
  states : List BattleState

/-- No combat yet. -/
def start : Machine := ⟨⟨none, 0⟩, 0, []⟩

/-- The calls of the standalone emulator and of a live session. A state is named by
    its place among those handed out. Its legal actions may be at hand, as those of a
    continuation are when actions are cached. -/
inductive Call where
  | initializeScenario (spec : List (Int × Int))
  | startCombat (spec : List (Int × Int))
  | restoreSnapshot (spec : List (Int × Int))
  | enterCombat (spec : List (Int × Int))
  | adoptCurrentCombat
  | resumeFrom (state : Nat)
  | cloneState (state : Nat)
  | enumerateLegalActions (state : Nat) (cached : Bool)
  | step (state : Nat) (reaction : Reaction)
  | applyAction (state : Nat) (reaction : Reaction)

variable (takesMaxHp : Bool)

/-- A fresh combat, recorded and wrapped: `initialize`, `start_combat` and
    `_wrap_restore_result`. -/
def reset (m : Machine) (spec : List (Int × Int)) : Machine :=
  let enemies := rowsOf (mint m.next spec)
  let frame := m.game.decisionFrame + 1
  { game := ⟨some (mint m.next spec), frame⟩
    next := m.next + spec.length
    states := m.states ++ [wrap ⟨enemies, false, frame⟩ (recordMaxHps enemies)] }

/-- `step_live_action`: the action on the game as it stands, wrapped with the
    dictionary of the state it is played from. -/
def stepLiveAction (m : Machine) (state : BattleState) (r : Reaction) : Option Machine :=
  match m.game.combat with
  | none => none
  | some creatures =>
      if h : r.enemies = creatures.length then
        let creatures' := r.after m.next creatures h
        let frame := m.game.decisionFrame + 1
        some { game := ⟨if r.concludes then none else some creatures', frame⟩
               next := m.next + r.standing.length
               states := m.states ++
                [wrap ⟨rowsOf creatures', r.isTerminal, frame⟩ state.enemyMaxHps] }
      else none

/-- The game an action of the session is played on: where it stands, if nothing has
    touched it since the state was handed out, else resynchronized. -/
def currentGame (m : Machine) (state : BattleState) : Option Game :=
  if state.decisionFrame = m.game.decisionFrame then some m.game
  else restore takesMaxHp state m.game

/-- One accepted call; `none` is a call that raises and leaves everything as it was. -/
def perform (m : Machine) : Call → Option Machine
  | .initializeScenario spec => some (reset m spec)
  | .startCombat spec => some (reset m spec)
  | .restoreSnapshot spec => some (reset m spec)
  | .enterCombat spec =>
      some { m with game := ⟨some (mint m.next spec), m.game.decisionFrame + 1⟩
                    next := m.next + spec.length }
  | .adoptCurrentCombat => do
      let creatures ← m.game.combat
      let enemies := rowsOf creatures
      some { m with states := m.states ++
        [wrap ⟨enemies, false, m.game.decisionFrame⟩ (adoptMaxHps enemies)] }
  | .resumeFrom k => do
      let state ← m.states[k]?
      let game ← restore takesMaxHp state m.game
      let creatures ← game.combat
      some { m with game := game, states := m.states ++
        [wrap ⟨rowsOf creatures, false, game.decisionFrame⟩ state.enemyMaxHps] }
  | .cloneState k => do
      let state ← m.states[k]?
      some { m with states := m.states ++ [state] }
  | .enumerateLegalActions k cached => do
      let state ← m.states[k]?
      if state.isTerminal || cached then some m
      else
        let game ← restore takesMaxHp state m.game
        some { m with game := game }
  | .step k r => do
      let state ← m.states[k]?
      let game ← currentGame takesMaxHp m state
      stepLiveAction { m with game := game } state r
  | .applyAction k r => do
      let state ← m.states[k]?
      if state.isTerminal then none
      else
        let game ← restore takesMaxHp state m.game
        stepLiveAction { m with game := game } state r

/-- A run's step. -/
def step (m : Machine) (c : Call) : Machine × Unit := ((perform takesMaxHp m c).getD m, ())

/-- The reported maximum is not somebody else's. -/
def EnemyRow.Own (row : EnemyRow) : Prop :=
  ∀ maxHp, row.maxHp = some maxHp → maxHp.owner = row.identity

/-- Every state handed out reports every living enemy with its own maximum. -/
def Attributed (m : Machine) : Prop := ∀ state ∈ m.states, ∀ row ∈ state.enemies, row.Own

/-- The state an action is played from and what the engine makes of it. -/
def played (m : Machine) : Call → Option (BattleState × Reaction)
  | .step k r | .applyAction k r => (m.states[k]?).map (·, r)
  | _ => none

/-- Where an action is played, each remembered index is left to the enemy that stood
    there, or to nobody. -/
def KeepsPlaces (m : Machine) (c : Call) : Prop :=
  (perform takesMaxHp m c).isSome → ∀ state r, played m c = some (state, r) →
    ∀ i, (state.enemyMaxHps.get? i).join.isSome →
      ∀ x, r.standing[i]? = some x → x.place? = some i

/-!
### Rows and maxima

The rows an observation has of the enemies, and the maxima that were recorded of them, by
index.
-/

section Records

theorem getElem?_rowsOf (creatures : List Creature) (j : Nat) :
    (rowsOf creatures)[j]? = creatures[j]?.map fun c => ⟨j, c.identity, c.hp, some c.maxHp⟩ := by
  rw [rowsOf, List.getElem?_mapIdx]

theorem rowsOf_concat (creatures : List Creature) (c : Creature) :
    rowsOf (creatures ++ [c]) =
      rowsOf creatures ++ [⟨creatures.length, c.identity, c.hp, some c.maxHp⟩] := by
  rw [rowsOf, rowsOf, List.mapIdx_append]
  simp

/-- What a start remembers of each place. -/
theorem get?_recordMaxHps (creatures : List Creature) (i : Nat) :
    (recordMaxHps (rowsOf creatures)).get? i = creatures[i]?.map fun c => some c.maxHp := by
  induction creatures using List.reverseRecOn with
  | nil => rfl
  | append_singleton creatures c ih =>
      rw [rowsOf_concat, recordMaxHps, List.foldl_append]
      rw [recordMaxHps] at ih
      simp only [List.foldl_cons, List.foldl_nil, Dict.get?_set, ih]
      by_cases hi : i = creatures.length
      · subst hi
        simp
      · rw [if_neg hi]
        by_cases hlt : i < creatures.length
        · rw [List.getElem?_append_left hlt]
        · rw [List.getElem?_eq_none (by omega), List.getElem?_eq_none (by simp; omega)]

/-- The engine gives every enemy a maximum, so an adoption remembers what a start
    does. -/
theorem adoptMaxHps_rowsOf (creatures : List Creature) :
    adoptMaxHps (rowsOf creatures) = recordMaxHps (rowsOf creatures) := by
  induction creatures using List.reverseRecOn with
  | nil => rfl
  | append_singleton creatures c ih =>
      rw [adoptMaxHps, recordMaxHps] at ih
      rw [rowsOf_concat, adoptMaxHps, recordMaxHps, List.foldl_append, List.foldl_append, ih]
      simp

/-- What a wrapped state reports at each place. -/
theorem getElem?_wrap (creatures : List Creature) (terminal : Bool) (frame : Nat)
    (hps : EnemyMaxHps) (j : Nat) :
    (wrap ⟨rowsOf creatures, terminal, frame⟩ hps).enemies[j]? = creatures[j]?.map fun c =>
      ⟨j, c.identity, c.hp, some ((hps.get? j).join.getD c.maxHp)⟩ := by
  simp only [wrap, List.getElem?_map, getElem?_rowsOf, Option.map_map]
  refine congrArg (fun f => Option.map f creatures[j]?) (funext fun c => ?_)
  simp only [Function.comp_apply, override]
  cases (hps.get? j).join <;> rfl

theorem identities_wrap (creatures : List Creature) (terminal : Bool) (frame : Nat)
    (hps : EnemyMaxHps) :
    (wrap ⟨rowsOf creatures, terminal, frame⟩ hps).enemies.map EnemyRow.identity =
      creatures.map Creature.identity := by
  refine List.ext_getElem? fun j => ?_
  rw [List.getElem?_map, getElem?_wrap, List.getElem?_map, Option.map_map]
  rfl

end Records

/-!
### Places

Where every enemy stood at the start, or stands where it was first seen, its index finds
its own maximum.
-/

section Places

/-- The remembered numbers match the places: each remembered enemy that is still
    there stands at its index, and nobody else does. Nothing below a remembered
    index is left out. -/
structure Placed (next : Nat) (hps : EnemyMaxHps) (ids : List Nat) : Prop where
  known : ∀ i maxHp, (hps.get? i).join = some maxHp → maxHp.owner < next
  front : ∀ i, (hps.get? i).join.isSome → ∀ j < i, (hps.get? j).join.isSome
  placed : ∀ i maxHp, (hps.get? i).join = some maxHp →
    ∀ (j : Nat) id, ids[j]? = some id → (id = maxHp.owner ↔ j = i)

/-- A list of the engine's: everyone once, everyone met, each with its own maximum. -/
structure Roster (next : Nat) (creatures : List Creature) : Prop where
  distinct : (creatures.map Creature.identity).Nodup
  known : ∀ c ∈ creatures, c.identity < next
  own : ∀ c ∈ creatures, c.maxHp.owner = c.identity

/-- A state whose numbers are in place. -/
structure Tracked (next : Nat) (state : BattleState) : Prop where
  distinct : (state.enemies.map EnemyRow.identity).Nodup
  known : ∀ row ∈ state.enemies, row.identity < next
  own : ∀ row ∈ state.enemies, row.Own
  places : Placed next state.enemyMaxHps (state.enemies.map EnemyRow.identity)

theorem Placed.mono {next next' : Nat} {hps : EnemyMaxHps} {ids : List Nat}
    (h : Placed next hps ids) (hle : next ≤ next') : Placed next' hps ids :=
  ⟨fun i maxHp hi => Nat.lt_of_lt_of_le (h.known i maxHp hi) hle, h.front, h.placed⟩

theorem Tracked.mono {next next' : Nat} {state : BattleState} (h : Tracked next state)
    (hle : next ≤ next') : Tracked next' state :=
  ⟨h.distinct, fun row hrow => Nat.lt_of_lt_of_le (h.known row hrow) hle, h.own,
    h.places.mono hle⟩

/-- A state is tracked when the numbers match the places. -/
theorem tracked_wrap {next : Nat} {creatures : List Creature} {hps : EnemyMaxHps}
    (hroster : Roster next creatures) (hplaced : Placed next hps (creatures.map Creature.identity))
    (terminal : Bool) (frame : Nat) :
    Tracked next (wrap ⟨rowsOf creatures, terminal, frame⟩ hps) := by
  have hids := identities_wrap creatures terminal frame hps
  -- A row is of the creature in its place, with the maximum of the table if it has one.
  have hrow : ∀ row ∈ (wrap ⟨rowsOf creatures, terminal, frame⟩ hps).enemies,
      ∃ (j : Nat) (c : Creature), creatures[j]? = some c ∧
        row = ⟨j, c.identity, c.hp, some ((hps.get? j).join.getD c.maxHp)⟩ := by
    intro row hmem
    rcases List.mem_iff_getElem?.mp hmem with ⟨j, hj⟩
    rw [getElem?_wrap, Option.map_eq_some_iff] at hj
    rcases hj with ⟨c, hc, rfl⟩
    exact ⟨j, c, hc, rfl⟩
  refine ⟨hids ▸ hroster.distinct, ?_, ?_, ?_⟩
  · intro row hmem
    rcases hrow row hmem with ⟨j, c, hc, rfl⟩
    exact hroster.known c (List.mem_of_getElem? hc)
  -- The creature's own maximum is its own, and an entry of the table belongs to whoever stands
  -- in its place.
  · intro row hmem maxHp hmax
    rcases hrow row hmem with ⟨j, c, hc, rfl⟩
    cases hentry : (hps.get? j).join with
    | none =>
        simp only [hentry, Option.getD_none, Option.some.injEq] at hmax
        exact hmax ▸ hroster.own c (List.mem_of_getElem? hc)
    | some entry =>
        simp only [hentry, Option.getD_some, Option.some.injEq] at hmax
        have hj : (creatures.map Creature.identity)[j]? = some c.identity := by
          rw [List.getElem?_map, hc]
          rfl
        have hsame := (hplaced.placed j entry hentry j c.identity hj).mpr rfl
        exact hmax ▸ hsame.symm
  · rw [hids]
    exact hplaced

/-- What a start remembers matches the places. -/
theorem placed_recordMaxHps {next : Nat} {creatures : List Creature}
    (h : Roster next creatures) :
    Placed next (recordMaxHps (rowsOf creatures)) (creatures.map Creature.identity) := by
  -- What is recorded under a place is the maximum of the creature that stands there.
  have hentry : ∀ i maxHp, ((recordMaxHps (rowsOf creatures)).get? i).join = some maxHp →
      ∃ c, creatures[i]? = some c ∧ c.maxHp = maxHp := by
    intro i maxHp hi
    rw [get?_recordMaxHps] at hi
    cases hc : creatures[i]? with
    | none => simp [hc] at hi
    | some c => exact ⟨c, rfl, by simpa [hc] using hi⟩
  refine ⟨?_, ?_, ?_⟩
  -- So the owner of an entry is a creature that is known.
  · intro i maxHp hi
    rcases hentry i maxHp hi with ⟨c, hc, rfl⟩
    rw [h.own c (List.mem_of_getElem? hc)]
    exact h.known c (List.mem_of_getElem? hc)
  -- The places with an entry are those of the roster, without a gap.
  · intro i hi j hj
    rcases Option.isSome_iff_exists.mp hi with ⟨maxHp, hi'⟩
    rcases hentry i maxHp hi' with ⟨c, hc, -⟩
    have hlen : i < creatures.length := (List.getElem?_eq_some_iff.mp hc).1
    rw [get?_recordMaxHps, List.getElem?_eq_getElem (by omega)]
    rfl
  -- And an entry belongs to who stands in its place, as the identities are distinct.
  · intro i maxHp hi j id hj
    rcases hentry i maxHp hi with ⟨c, hc, rfl⟩
    rw [h.own c (List.mem_of_getElem? hc)]
    have hi' : (creatures.map Creature.identity)[i]? = some c.identity := by
      rw [List.getElem?_map, hc]
      rfl
    constructor
    · rintro rfl
      have hlen := (List.getElem?_eq_some_iff.mp hj).1
      exact (List.getElem?_inj hlen h.distinct).mp (hj.trans hi'.symm)
    · rintro rfl
      exact Option.some.inj (hj.symm.trans hi')

end Places

/-!
### Reactions

What a reaction does to the places: the enemies that stay keep their order, so one that
moves up stands where another stood.
-/

section Reactions

theorem getElem?_after (r : Reaction) (next : Nat) (creatures : List Creature)
    (h : r.enemies = creatures.length) (j : Nat) :
    (r.after next creatures h)[j]? = r.standing[j]?.map fun x =>
      x.creature next (fun p => creatures.get (p.cast h)) j := by
  rw [Reaction.after, List.getElem?_mapIdx]

/-- Everybody after an action was there before it, at the place the reaction names,
    or is new. -/
theorem identity_after {r : Reaction} {next : Nat} {creatures : List Creature}
    (h : r.enemies = creatures.length) {j : Nat} {c : Creature}
    (hc : (r.after next creatures h)[j]? = some c) :
    ∃ x, r.standing[j]? = some x ∧ c.maxHp.owner = (match x.place? with
        | some p => (creatures[p]?.map fun c => c.maxHp.owner).getD c.identity
        | none => c.identity) ∧
      (match x.place? with
        | some p => (creatures.map Creature.identity)[p]? = some c.identity
        | none => c.identity = next + j) := by
  rw [getElem?_after, Option.map_eq_some_iff] at hc
  rcases hc with ⟨x, hx, rfl⟩
  refine ⟨x, hx, ?_⟩
  cases x with
  | stays place hp gain =>
      have hlt : place.val < creatures.length := h ▸ place.isLt
      simp [Standing.place?, Standing.creature, hlt]
  | joins hp maxHp => exact ⟨rfl, rfl⟩

/-- Two places after an action were not the same place before it. -/
theorem place_ne_of_ordered {r : Reaction} {i j : Nat} {x y : Standing r.enemies}
    (hx : r.standing[i]? = some x) (hy : r.standing[j]? = some y) {p : Nat}
    (hxp : x.place? = some p) (hyp : y.place? = some p) : i = j := by
  have hbefore : ∀ {i j : Nat} {x y : Standing r.enemies}, r.standing[i]? = some x →
      r.standing[j]? = some y → x.place? = some p → y.place? = some p → ¬ i < j := by
    intro i j x y hx hy hxp hyp hlt
    rcases List.getElem?_eq_some_iff.mp hx with ⟨hi, rfl⟩
    rcases List.getElem?_eq_some_iff.mp hy with ⟨hj, rfl⟩
    exact absurd (List.pairwise_iff_getElem.mp r.ordered i j hi hj hlt p hxp p hyp) (by omega)
  have h₁ := hbefore hx hy hxp hyp
  have h₂ := hbefore hy hx hyp hxp
  omega

/-- A reaction mints new identities only, and so keeps them apart. -/
theorem roster_after {r : Reaction} {next : Nat} {creatures : List Creature}
    (h : r.enemies = creatures.length) (hroster : Roster next creatures) :
    Roster (next + r.standing.length) (r.after next creatures h) := by
  -- Who stands after an action stood before it, or has joined with the next identity.
  have hmem : ∀ c ∈ r.after next creatures h, c.identity < next + r.standing.length ∧
      c.maxHp.owner = c.identity := by
    intro c hc
    rcases List.mem_iff_getElem?.mp hc with ⟨j, hj⟩
    rcases identity_after h hj with ⟨x, hx, howner, hid⟩
    have hlt := (List.getElem?_eq_some_iff.mp hx).1
    cases hp : x.place? with
    | none =>
        simp only [hp] at howner hid
        exact ⟨by omega, howner⟩
    | some p =>
        simp only [hp, List.getElem?_map, Option.map_eq_some_iff] at howner hid
        rcases hid with ⟨d, hd, hdc⟩
        have hdmem := List.mem_of_getElem? hd
        have hknown := hroster.known d hdmem
        rw [hd, Option.map_some, Option.getD_some, hroster.own d hdmem] at howner
        exact ⟨by omega, howner.trans hdc⟩
  -- No two are one: they stood in different places before, or joined at different ones.
  refine ⟨?_, fun c hc => (hmem c hc).1, fun c hc => (hmem c hc).2⟩
  rw [List.nodup_iff_getElem?_ne_getElem?]
  intro i j hij hj heq
  rw [List.length_map] at hj
  rw [List.getElem?_map, List.getElem?_map, List.getElem?_eq_getElem (by omega),
    List.getElem?_eq_getElem hj, Option.map_some, Option.map_some, Option.some.injEq] at heq
  have hi : i < (r.after next creatures h).length := by omega
  rcases identity_after h (List.getElem?_eq_getElem hi) with ⟨x, hx, -, hidx⟩
  rcases identity_after h (List.getElem?_eq_getElem hj) with ⟨y, hy, -, hidy⟩
  -- Whoever stood before has an identity below the next one.
  have holder : ∀ {k : Nat} {id : Nat}, (creatures.map Creature.identity)[k]? = some id →
      id < next := by
    intro k id hk
    rw [List.getElem?_map, Option.map_eq_some_iff] at hk
    rcases hk with ⟨d, hd, rfl⟩
    exact hroster.known d (List.mem_of_getElem? hd)
  -- The four cases of who stood before and who joined.
  cases hp : x.place? with
  | none =>
      cases hq : y.place? with
      | none => simp only [hp, hq] at hidx hidy; omega
      | some q =>
          simp only [hp, hq] at hidx hidy
          have := holder hidy
          omega
  | some p =>
      cases hq : y.place? with
      | none =>
          simp only [hp, hq] at hidx hidy
          have := holder hidx
          omega
      | some q =>
          simp only [hp, hq] at hidx hidy
          have hlt := (List.getElem?_eq_some_iff.mp hidx).1
          have hpq : p = q := (List.getElem?_inj hlt hroster.distinct).mp
            (hidx.trans (heq ▸ hidy.symm))
          exact absurd (place_ne_of_ordered hx hy hp (hpq ▸ hq)) (by omega)

/-- A reaction that keeps the places keeps the numbers matched. -/
theorem placed_after {r : Reaction} {next : Nat} {creatures : List Creature}
    (h : r.enemies = creatures.length) {hps : EnemyMaxHps}
    (hplaced : Placed next hps (creatures.map Creature.identity))
    (hkeeps : ∀ i, (hps.get? i).join.isSome → ∀ x, r.standing[i]? = some x → x.place? = some i) :
    Placed (next + r.standing.length) hps ((r.after next creatures h).map Creature.identity) := by
  refine ⟨(hplaced.mono (by omega)).known, hplaced.front, ?_⟩
  intro i maxHp hi j id hj
  have hsome : (hps.get? i).join.isSome := by rw [hi]; rfl
  rw [List.getElem?_map, Option.map_eq_some_iff] at hj
  rcases hj with ⟨c, hc, rfl⟩
  rcases identity_after h hc with ⟨x, hx, -, hid⟩
  constructor
  · intro howner
    cases hp : x.place? with
    | none =>
        -- A newcomer is nobody that was remembered.
        have hknown := hplaced.known i maxHp hi
        simp only [hp] at hid
        omega
    | some p =>
        simp only [hp] at hid
        have hpi : p = i := (hplaced.placed i maxHp hi p c.identity hid).mp howner
        subst hpi
        have hlen := (List.getElem?_eq_some_iff.mp hx).1
        rcases Nat.lt_trichotomy j p with hlt | heq | hgt
        · -- The places in front of a remembered one are remembered, and kept.
          have hown := hkeeps j (hplaced.front p hsome j hlt) x hx
          rw [hp, Option.some.injEq] at hown
          exact hown.symm
        · exact heq
        · have hthere := List.getElem?_eq_getElem (l := r.standing) (show p < _ by omega)
          exact place_ne_of_ordered hx hthere hp (hkeeps p hsome _ hthere)
  · rintro rfl
    rw [hkeeps j hsome x hx] at hid
    exact (hplaced.placed j maxHp hi j c.identity hid).mpr rfl

/-- A reaction that leaves a remembered index to somebody else reports a number that
    is not theirs. -/
theorem not_own_of_moved {r : Reaction} {next : Nat} {creatures : List Creature}
    (h : r.enemies = creatures.length) {hps : EnemyMaxHps}
    (hplaced : Placed next hps (creatures.map Creature.identity)) {i : Nat}
    (hi : (hps.get? i).join.isSome) {x : Standing r.enemies} (hx : r.standing[i]? = some x)
    (hmoved : x.place? ≠ some i) (terminal : Bool) (frame : Nat) :
    ∃ row ∈ (wrap ⟨rowsOf (r.after next creatures h), terminal, frame⟩ hps).enemies,
      ¬ row.Own := by
  rcases Option.isSome_iff_exists.mp hi with ⟨maxHp, hentry⟩
  rcases hc : (r.after next creatures h)[i]? with _ | c
  · rw [getElem?_after, hx] at hc
    cases hc
  · have hrow := getElem?_wrap (r.after next creatures h) terminal frame hps i
    rw [hc, Option.map_some, hentry, Option.getD_some] at hrow
    refine ⟨_, List.mem_of_getElem? hrow, fun hown => hmoved ?_⟩
    have howner : maxHp.owner = c.identity := hown maxHp rfl
    rcases identity_after h hc with ⟨y, hy, -, hid⟩
    rw [hx, Option.some.injEq] at hy
    subst hy
    cases hp : x.place? with
    | none =>
        have hknown := hplaced.known i maxHp hentry
        simp only [hp] at hid
        omega
    | some p =>
        simp only [hp] at hid
        rw [(hplaced.placed i maxHp hentry p c.identity hid).mp howner.symm]

end Reactions

/-!
### Runs

The roster and the record of the maxima, along every run.
-/

section Runs

/-- A state and the game agree on who stands where, if the game still shows it. -/
def Shows (game : Game) (state : BattleState) : Prop :=
  state.decisionFrame ≤ game.decisionFrame ∧
    (state.decisionFrame = game.decisionFrame → ∀ creatures, game.combat = some creatures →
      creatures.map Creature.identity = state.enemies.map EnemyRow.identity)

/-- The invariant of the runs that keep the places. -/
structure Inv (m : Machine) : Prop where
  roster : ∀ creatures, m.game.combat = some creatures → Roster m.next creatures
  tracked : ∀ state ∈ m.states, Tracked m.next state
  shows : ∀ state ∈ m.states, Shows m.game state

theorem inv_start : Inv start := ⟨nofun, nofun, nofun⟩

theorem Inv.attributed {m : Machine} (h : Inv m) : Attributed m :=
  fun state hstate => (h.tracked state hstate).own

/-- A game moved on shows none of the states handed out before. -/
theorem shows_of_lt {m : Machine} (h : Inv m) {game : Game}
    (hframe : m.game.decisionFrame < game.decisionFrame) : ∀ state ∈ m.states,
    Shows game state := by
  intro state hstate
  have hle := (h.shows state hstate).1
  exact ⟨by omega, fun heq => absurd heq (by omega)⟩

/-- The game put in another combat, and nothing handed out. -/
theorem Inv.withGame {m : Machine} (h : Inv m) {game : Game} {next : Nat} (hle : m.next ≤ next)
    (hframe : m.game.decisionFrame < game.decisionFrame)
    (hroster : ∀ creatures, game.combat = some creatures → Roster next creatures) :
    Inv { m with game := game, next := next } :=
  ⟨hroster, fun state hstate => (h.tracked state hstate).mono hle, shows_of_lt h hframe⟩

/-- One more state handed out. -/
theorem Inv.push {m : Machine} (h : Inv m) {state : BattleState} (htracked : Tracked m.next state)
    (hshows : Shows m.game state) : Inv { m with states := m.states ++ [state] } := by
  refine ⟨h.roster, ?_, ?_⟩ <;> intro other hmem <;>
    rcases List.mem_append.mp hmem with hold | hnew
  · exact h.tracked other hold
  · exact List.mem_singleton.mp hnew ▸ htracked
  · exact h.shows other hold
  · exact List.mem_singleton.mp hnew ▸ hshows

/-- What the game lists is what a state just wrapped shows. -/
theorem shows_wrap {game : Game} {creatures : List Creature}
    (hcombat : ∀ others, game.combat = some others → others = creatures) (terminal : Bool)
    (hps : EnemyMaxHps) :
    Shows game (wrap ⟨rowsOf creatures, terminal, game.decisionFrame⟩ hps) := by
  refine ⟨Nat.le_refl _, fun _ others hothers => ?_⟩
  rw [identities_wrap, hcombat others hothers]

/-- The enemies of a new combat have identities of their own. -/
theorem roster_mint (next : Nat) (spec : List (Int × Int)) :
    Roster (next + spec.length) (mint next spec) := by
  have hget : ∀ (i : Nat) c, (mint next spec)[i]? = some c →
      i < spec.length ∧ c.identity = next + i ∧ c.maxHp.owner = c.identity := by
    intro i c hc
    rw [mint, List.getElem?_mapIdx, Option.map_eq_some_iff] at hc
    rcases hc with ⟨e, he, rfl⟩
    exact ⟨(List.getElem?_eq_some_iff.mp he).1, rfl, rfl⟩
  refine ⟨?_, ?_, ?_⟩
  · rw [List.nodup_iff_getElem?_ne_getElem?]
    intro i j hij hj heq
    rw [List.length_map] at hj
    have hi : i < (mint next spec).length := by omega
    rw [List.getElem?_map, List.getElem?_map, List.getElem?_eq_getElem hi,
      List.getElem?_eq_getElem hj, Option.map_some, Option.map_some, Option.some.injEq] at heq
    have hidx := (hget i _ (List.getElem?_eq_getElem hi)).2.1
    have hidy := (hget j _ (List.getElem?_eq_getElem hj)).2.1
    omega
  · intro c hc
    rcases List.mem_iff_getElem?.mp hc with ⟨i, hi⟩
    have h := hget i c hi
    omega
  · intro c hc
    rcases List.mem_iff_getElem?.mp hc with ⟨i, hi⟩
    exact (hget i c hi).2.2

theorem inv_reset {m : Machine} (h : Inv m) (spec : List (Int × Int)) : Inv (reset m spec) := by
  have hroster := roster_mint m.next spec
  have hgame : Inv { m with game := ⟨some (mint m.next spec), m.game.decisionFrame + 1⟩
                            next := m.next + spec.length } :=
    h.withGame (Nat.le_add_right _ _) (Nat.lt_succ_self _) fun _ hc => Option.some.inj hc ▸ hroster
  exact hgame.push (tracked_wrap hroster (placed_recordMaxHps hroster) _ _)
    (shows_wrap (fun _ hc => (Option.some.inj hc).symm) _ _)

/-- What a restored game lists: who the state lists, each with its own maximum. -/
theorem restore_eq_some {next : Nat} {state : BattleState} {game game' : Game}
    (htracked : Tracked next state) (h : restore takesMaxHp state game = some game') :
    game'.decisionFrame = game.decisionFrame + 1 ∧ ∃ creatures, game'.combat = some creatures ∧
      Roster next creatures ∧
      creatures.map Creature.identity = state.enemies.map EnemyRow.identity := by
  unfold restore at h
  split at h
  · cases h
  · simp only [Option.some.injEq] at h
    subst h
    refine ⟨rfl, _, rfl, ⟨?_, ?_, ?_⟩, ?_⟩
    · rw [List.map_map]
      exact htracked.distinct
    · intro c hc
      rcases List.mem_map.mp hc with ⟨row, hrow, rfl⟩
      exact htracked.known row hrow
    · intro c hc
      rcases List.mem_map.mp hc with ⟨row, hrow, rfl⟩
      dsimp only
      split
      · next maxHp hmax => exact htracked.own row hrow maxHp hmax
      · rfl
    · rw [List.map_map]
      rfl

/-- The game an action is played on lists who the state lists, before either user. -/
theorem inv_currentGame {m : Machine} {state : BattleState} {game : Game} (h : Inv m)
    (hstate : state ∈ m.states) (hgame : currentGame takesMaxHp m state = some game) :
    Inv { m with game := game } ∧ ∀ creatures, game.combat = some creatures →
      creatures.map Creature.identity = state.enemies.map EnemyRow.identity := by
  unfold currentGame at hgame
  split at hgame
  · next hframe =>
      rw [← Option.some.inj hgame]
      exact ⟨h, (h.shows state hstate).2 hframe⟩
  · rcases restore_eq_some takesMaxHp (h.tracked state hstate) hgame with
      ⟨hframe, creatures, hcombat, hroster, hids⟩
    refine ⟨h.withGame (Nat.le_refl _) (by omega) ?_, ?_⟩ <;> intro others hothers <;>
      rw [hcombat] at hothers <;> cases hothers
    · exact hroster
    · exact hids

/-- One action of either user: with the places kept the invariant is, and without
    them a number is misreported. -/
theorem inv_stepLiveAction {m m' : Machine} {state : BattleState} {r : Reaction} (h : Inv m)
    (hstate : state ∈ m.states)
    (hids : ∀ creatures, m.game.combat = some creatures →
      creatures.map Creature.identity = state.enemies.map EnemyRow.identity)
    (hstep : stepLiveAction m state r = some m') :
    ((∀ i, (state.enemyMaxHps.get? i).join.isSome →
      ∀ x, r.standing[i]? = some x → x.place? = some i) → Inv m') ∧
    (Attributed m' → ∀ i, (state.enemyMaxHps.get? i).join.isSome →
      ∀ x, r.standing[i]? = some x → x.place? = some i) := by
  unfold stepLiveAction at hstep
  split at hstep
  · cases hstep
  -- The action needs a combat and a reaction that is about its creatures.
  · next creatures hcombat =>
      split at hstep
      · next hfits =>
          simp only [Option.some.injEq] at hstep
          subst hstep
          -- The table of the state is about the creatures as they stand before the action.
          have hplaced : Placed m.next state.enemyMaxHps (creatures.map Creature.identity) :=
            hids creatures hcombat ▸ (h.tracked state hstate).places
          have hroster := roster_after hfits (h.roster creatures hcombat)
          constructor
          -- If everyone with an entry keeps the place, the table is still about the same
          -- creatures.
          · intro hkeeps
            refine Inv.push (m := ⟨⟨_, _⟩, _, m.states⟩) (h.withGame (by omega) (by simp) ?_)
              (tracked_wrap hroster (placed_after hfits hplaced hkeeps) _ _) (shows_wrap ?_ _ _)
            all_goals
              intro others hothers
              dsimp only at hothers
              split at hothers
              · cases hothers
              · cases hothers
                first | exact hroster | rfl
          -- If someone moved, a row of the new state has another one's maximum.
          · intro hattributed i hi x hx
            by_contra hmoved
            rcases not_own_of_moved hfits hplaced hi hx hmoved r.isTerminal
              (m.game.decisionFrame + 1) with ⟨row, hrow, hnot⟩
            exact hnot (hattributed _ (by simp) row hrow)
      · cases hstep

/-- Every call that keeps the places keeps the invariant, and one that does not
    misreports a number. -/
theorem inv_perform {m m' : Machine} (h : Inv m) (c : Call)
    (hc : perform takesMaxHp m c = some m') :
    (KeepsPlaces takesMaxHp m c → Inv m') ∧ (Attributed m' → KeepsPlaces takesMaxHp m c) := by
  -- Only an action can move anybody.
  have hquiet : played m c = none → Inv m' →
      (KeepsPlaces takesMaxHp m c → Inv m') ∧ (Attributed m' → KeepsPlaces takesMaxHp m c) := by
    intro hnone hinv
    exact ⟨fun _ => hinv, fun _ _ state r hplayed => by rw [hnone] at hplayed; cases hplayed⟩
  cases c with
  | initializeScenario spec => exact hquiet rfl (Option.some.inj hc ▸ inv_reset h spec)
  | startCombat spec => exact hquiet rfl (Option.some.inj hc ▸ inv_reset h spec)
  | restoreSnapshot spec => exact hquiet rfl (Option.some.inj hc ▸ inv_reset h spec)
  | enterCombat spec =>
      refine hquiet rfl (Option.some.inj hc ▸ h.withGame (by omega) (by simp) ?_)
      exact fun _ hcombat => Option.some.inj hcombat ▸ roster_mint m.next spec
  | adoptCurrentCombat =>
      rcases Option.bind_eq_some_iff.mp hc with ⟨creatures, hcombat, hm⟩
      have hroster := h.roster creatures hcombat
      have hplaced := placed_recordMaxHps hroster
      refine hquiet rfl (Option.some.inj hm ▸ h.push ?_ ?_)
      · exact tracked_wrap hroster (adoptMaxHps_rowsOf creatures ▸ hplaced) _ _
      · exact shows_wrap (fun _ hothers => Option.some.inj (hothers.symm.trans hcombat)) _ _
  | resumeFrom k =>
      rcases Option.bind_eq_some_iff.mp hc with ⟨state, hk, hc⟩
      rcases Option.bind_eq_some_iff.mp hc with ⟨game, hgame, hc⟩
      rcases Option.bind_eq_some_iff.mp hc with ⟨creatures, hcombat, hm⟩
      have htracked := h.tracked state (List.mem_of_getElem? hk)
      rcases restore_eq_some takesMaxHp htracked hgame with
        ⟨hframe, others, hothers, hroster, hids⟩
      cases hothers.symm.trans hcombat
      have hmoved : Inv { m with game := game } := h.withGame (Nat.le_refl _) (by omega)
        fun _ hc => Option.some.inj (hc.symm.trans hcombat) ▸ hroster
      refine hquiet rfl (Option.some.inj hm ▸ hmoved.push ?_ ?_)
      · exact tracked_wrap hroster (hids ▸ htracked.places) _ _
      · exact shows_wrap (fun _ hc => Option.some.inj (hc.symm.trans hcombat)) _ _
  | cloneState k =>
      rcases Option.bind_eq_some_iff.mp hc with ⟨state, hk, hm⟩
      have hmem := List.mem_of_getElem? hk
      exact hquiet rfl (Option.some.inj hm ▸ h.push (h.tracked state hmem) (h.shows state hmem))
  | enumerateLegalActions k cached =>
      rcases Option.bind_eq_some_iff.mp hc with ⟨state, hk, hc⟩
      split at hc
      · exact hquiet rfl (Option.some.inj hc ▸ h)
      · rcases Option.bind_eq_some_iff.mp hc with ⟨game, hgame, hm⟩
        rcases restore_eq_some takesMaxHp (h.tracked state (List.mem_of_getElem? hk)) hgame with
          ⟨hframe, others, hothers, hroster, -⟩
        refine hquiet rfl (Option.some.inj hm ▸ h.withGame (Nat.le_refl _) (by omega) ?_)
        exact fun _ hc => Option.some.inj (hc.symm.trans hothers) ▸ hroster
  | step k r =>
      have hsome : (perform takesMaxHp m (.step k r)).isSome := by rw [hc]; rfl
      rcases Option.bind_eq_some_iff.mp hc with ⟨state, hk, hc⟩
      rcases Option.bind_eq_some_iff.mp hc with ⟨game, hgame, hm⟩
      have hmem := List.mem_of_getElem? hk
      rcases inv_currentGame takesMaxHp h hmem hgame with ⟨hmoved, hids⟩
      have hlaw := inv_stepLiveAction hmoved hmem hids hm
      have hplayed : played m (.step k r) = some (state, r) := by simp [played, hk]
      refine ⟨fun hkeeps => hlaw.1 (hkeeps hsome state r hplayed), ?_⟩
      intro hattributed _ state' r' hplayed'
      cases hplayed.symm.trans hplayed'
      exact hlaw.2 hattributed
  | applyAction k r =>
      have hsome : (perform takesMaxHp m (.applyAction k r)).isSome := by rw [hc]; rfl
      rcases Option.bind_eq_some_iff.mp hc with ⟨state, hk, hc⟩
      split at hc
      · cases hc
      · rcases Option.bind_eq_some_iff.mp hc with ⟨game, hgame, hm⟩
        have hmem := List.mem_of_getElem? hk
        rcases restore_eq_some takesMaxHp (h.tracked state hmem) hgame with
          ⟨hframe, others, hothers, hroster, hids⟩
        have hmoved : Inv { m with game := game } := h.withGame (Nat.le_refl _) (by omega)
          fun _ hc => Option.some.inj (hc.symm.trans hothers) ▸ hroster
        have hlaw := inv_stepLiveAction hmoved hmem
          (fun _ hc => Option.some.inj (hc.symm.trans hothers) ▸ hids) hm
        have hplayed : played m (.applyAction k r) = some (state, r) := by simp [played, hk]
        refine ⟨fun hkeeps => hlaw.1 (hkeeps hsome state r hplayed), ?_⟩
        intro hattributed _ state' r' hplayed'
        cases hplayed.symm.trans hplayed'
        exact hlaw.2 hattributed

theorem inv_step {m : Machine} (h : Inv m) (c : Call) (hkeeps : KeepsPlaces takesMaxHp m c) :
    Inv (step takesMaxHp m c).1 := by
  unfold step
  cases hc : perform takesMaxHp m c with
  | none => exact h
  | some m' => exact (inv_perform takesMaxHp h c hc).1 hkeeps

/-- A call leaves every number with its enemy exactly when it keeps the places. -/
theorem keepsPlaces_iff {m : Machine} (h : Inv m) (c : Call) :
    KeepsPlaces takesMaxHp m c ↔ Attributed (step takesMaxHp m c).1 := by
  constructor
  · exact fun hkeeps => (inv_step takesMaxHp h c hkeeps).attributed
  · intro hattributed
    cases hc : perform takesMaxHp m c with
    | none => exact fun hsome => absurd hsome (by simp [hc])
    | some m' =>
        simp only [step, hc, Option.getD_some] at hattributed
        exact (inv_perform takesMaxHp h c hc).2 hattributed

/-- Every state of a run reports every living enemy with its own maximum exactly when
    each action of the run leaves every remembered index to the enemy that stood
    there, or to nobody. -/
theorem attributed_iff_keepsPlaces (calls : List Call) :
    Run.Along (step takesMaxHp) (KeepsPlaces takesMaxHp) start calls ↔
      Run.Along (step takesMaxHp) (fun m c => Attributed (step takesMaxHp m c).1) start calls :=
  Run.along_congr (step takesMaxHp) (fun _ c h => keepsPlaces_iff takesMaxHp h c)
    (fun _ c h hkeeps => inv_step takesMaxHp h c hkeeps) start calls inv_start

/-- The first of two enemies dies. -/
def firstDies : Reaction where
  enemies := 2
  standing := [.stays 1 20 0]
  ordered := List.pairwise_singleton _ _
  isTerminal := false
  concludes := false

/-- Of two enemies with 48 and 20 HP the first one dies, and the other is reported
    with a maximum of 48, by the standalone emulator and by the session alike. -/
theorem firstDies_misattributed :
    ¬ Attributed (Run.final (step true) start [.initializeScenario [(48, 48), (20, 20)],
      .applyAction 0 firstDies]) ∧
    ¬ Attributed (Run.final (step true) start [.startCombat [(48, 48), (20, 20)],
      .step 0 firstDies]) ∧
    (Run.final (step true) start [.startCombat [(48, 48), (20, 20)],
      .step 0 firstDies]).states[1]?.map
      BattleState.enemies = some [⟨0, 1, 20, some ⟨48, 0⟩⟩] := by
  refine ⟨fun h => ?_, fun h => ?_, by decide +kernel⟩ <;>
    exact absurd (h _ (List.mem_of_getElem? (i := 1) rfl) _
      (List.mem_of_getElem? (i := 0) rfl) _ rfl)
      (by decide +kernel)

end Runs

end EnemyMaxHp

end Combat

end STS2RL
