import STS2RL.WholeRun.FrozenInstance

/-!
# The Rooms of a Run

The history of the root is built from the room contexts that the decisions of the
run are published with. The context of a room is read once or more while a decision
is published in it, and contexts without a room are read on the map between two
rooms. A treasure room is entered and left while its node of the map is chosen, so
no context of it is ever read.

A room is told by its column and its row. A second context of the same room adds
nothing, and neither does the first context of another room at the same place of
another act. So the history is complete exactly when a context is read in each room
and each room has coordinates that no other room has.

## Main definitions

* `RoomVisit`, `Stay`: A room that is entered, with the contexts read until the next.
* `roomsVisited`: The rooms a history holds.
* `recorded`: The rooms that are recorded among those that are entered.
* `roomsRun`: A run through given rooms.

## Theorems

* `recounts_of_run`: The history of the root is that of the contexts that were read.
* `foldl_stay`: What a stay adds to a history.
* `recorded_eq_iff`: When every room is recorded.
* `one_visit_per_room_iff`: The law of the history, for every run.
-/

namespace STS2RL

namespace WholeRun

open Api (PyError Fields)

variable {W Φ κ β : Type}

namespace Instance

/-- The history of the root is that of the contexts its decisions were read in. -/
def Recounts (inst : Instance W Φ κ β) : Prop :=
  inst.rootHistory = inst.rootContexts.foldl HistoryBuilder.observeRoomContext {}

/-- What records nothing keeps the record a record of the contexts. -/
theorem recounts_unrecorded : Unrecorded (Recounts : Instance W Φ κ β → Prop) where
  session _ _ h := h
  rootHistory inst roomContext h := by
    change inst.rootHistory.observeRoomContext roomContext =
      (inst.rootContexts ++ [roomContext]).foldl HistoryBuilder.observeRoomContext {}
    rw [List.foldl_append, ← show inst.rootHistory = _ from h]
    rfl
  position _ _ _ _ h := h
  rootBranchLog _ _ _ h := h
  completion _ _ h := h
  nextHolder _ _ h := h
  closed _ _ h := h
  records _ _ _ _ _ _ h := h
  phase _ _ _ _ _ h := h
  install _ _ _ h := h
  leave _ h := h

/-- In every state of every run the history is that of the contexts. -/
theorem recounts_of_run (env : RunEnv W Φ κ β) (facade : Facade) {config : Fields} {world : W}
    {access : GameAccess} {start : Instance W Φ κ β}
    (hconstruct : Constructs env config world access start) (requests : List Request) :
    Recounts (Run.final (step env facade) start requests) := by
  have hI : Unrecorded (Recounts : Instance W Φ κ β → Prop) := recounts_unrecorded
  have hstart : Recounts start := by
    have hafter := (hI.steady.framed.construct env config).after (s := blank world access) rfl
    rwa [hconstruct] at hafter
  have hpoison := (hI.steady.stable env).poisonCombatTransaction env fun _ _ h => h
  exact Run.invariant _ (hI.step env hpoison facade) start requests hstart

end Instance

/-- A room that is entered. -/
structure RoomVisit where
  actIndex : Int
  column : Option Int
  row : Option Int
  roomType : Option String

namespace RoomVisit

/-- A context that is read in the room. -/
structure ShownBy (room : RoomVisit) (context : RoomContext) : Prop where
  actIndex : Dict.lookupL ("act_index" : PyStr) context.fields = some (Json.int room.actIndex)
  column : context.column = room.column
  row : context.row = room.row
  roomType : context.roomType = room.roomType

instance (room : RoomVisit) (context : RoomContext) : Decidable (room.ShownBy context) :=
  decidable_of_iff (Dict.lookupL ("act_index" : PyStr) context.fields =
      some (Json.int room.actIndex) ∧ context.column = room.column ∧ context.row = room.row ∧
      context.roomType = room.roomType)
    ⟨fun ⟨hact, hcolumn, hrow, htype⟩ => ⟨hact, hcolumn, hrow, htype⟩,
      fun h => ⟨h.actIndex, h.column, h.row, h.roomType⟩⟩

/-- Where the room is on the map of its act. -/
def coordinates (room : RoomVisit) : Option (Int × Int) :=
  room.column.bind fun column => room.row.map fun row => (column, row)

/-- The entry that records the room. -/
def entry (room : RoomVisit) : Option HistoryEntry :=
  room.coordinates.map fun place => ⟨"room_visited", place.1, place.2, room.roomType⟩

end RoomVisit

/-- A stay in a room: the contexts that are read after it is entered, before the next room
    is. Those that are read in a room are read in this one; there may be none. -/
structure Stay where
  room : RoomVisit
  contexts : List RoomContext
  shown : ∀ context ∈ contexts, context.inRoom = true → room.ShownBy context

namespace Stay

/-- A context of the room is read. -/
def Seen (stay : Stay) : Prop := ∃ context ∈ stay.contexts, context.inRoom = true

/-- Where the room is, as far as a context shows it. -/
def place (stay : Stay) : Option (Int × Int) :=
  (stay.contexts.find? (·.inRoom)).bind fun _ => stay.room.coordinates

theorem place_ne_none_iff (stay : Stay) :
    stay.place ≠ none ↔ stay.room.coordinates ≠ none ∧ stay.Seen := by
  unfold place Seen
  cases hfirst : stay.contexts.find? (·.inRoom) with
  | none =>
      rw [List.find?_eq_none] at hfirst
      refine iff_of_false (fun h => h rfl) ?_
      rintro ⟨-, context, hmem, hroom⟩
      exact hfirst context hmem hroom
  | some context =>
      exact ⟨fun h => ⟨h, context, List.mem_of_find?_eq_some hfirst,
        List.find?_some hfirst⟩, fun h => h.1⟩

theorem place_eq {stay : Stay} (h : stay.place ≠ none) : stay.place = stay.room.coordinates := by
  unfold place at h ⊢
  cases hfirst : stay.contexts.find? (·.inRoom) with
  | none => exact absurd (by rw [hfirst]; rfl) h
  | some context => rfl

end Stay

namespace HistoryBuilder

/-- The rooms a history holds. -/
def roomsVisited (history : HistoryBuilder) : List HistoryEntry :=
  history.entries.filter fun entry => entry.kind = "room_visited"

variable {history : HistoryBuilder}

theorem observe_outside {context : RoomContext} (h : ¬ context.inRoom = true) :
    history.observeRoomContext context = history := by
  unfold observeRoomContext
  rw [if_neg h]

/-- A context of a room adds nothing when the room has no coordinates, or when some
    room with its coordinates was recorded. -/
theorem observe_unrecorded {room : RoomVisit} {context : RoomContext} (h : room.ShownBy context)
    (hold : ∀ place, room.coordinates = some place → place ∈ history.seenCoordinates) :
    history.observeRoomContext context = history := by
  unfold observeRoomContext
  rw [h.column, h.row]
  unfold RoomVisit.coordinates at hold
  cases hcolumn : room.column with
  | none => exact ite_self _
  | some column =>
      cases hrow : room.row with
      | none => exact ite_self _
      | some row =>
          rw [hcolumn, hrow] at hold
          simp only [hold (column, row) rfl, if_true, ite_self]

/-- A context of a room with new coordinates records it. -/
theorem observe_recorded {room : RoomVisit} {context : RoomContext} (hroom : context.inRoom = true)
    (h : room.ShownBy context) {place : Int × Int} (hplace : room.coordinates = some place)
    (hnew : place ∉ history.seenCoordinates) :
    (history.observeRoomContext context).roomsVisited =
        history.roomsVisited ++ [⟨"room_visited", place.1, place.2, room.roomType⟩] ∧
      (history.observeRoomContext context).seenCoordinates =
        insert place history.seenCoordinates := by
  unfold RoomVisit.coordinates at hplace
  rcases Option.bind_eq_some_iff.mp hplace with ⟨column, hcolumn, hmap⟩
  rcases Option.map_eq_some_iff.mp hmap with ⟨row, hrow, rfl⟩
  unfold observeRoomContext roomsVisited
  rw [hroom, h.column, h.row, h.roomType, hcolumn, hrow]
  simp only [if_true, hnew, if_false]
  refine ⟨?_, trivial⟩
  -- The entry of an elite or a boss is of the other kind.
  rw [List.filter_append]
  split <;> simp

/-- Contexts add nothing when the room they show is recorded, or has no coordinates. -/
theorem foldl_unrecorded (room : RoomVisit) (contexts : List RoomContext)
    (h : ∀ context ∈ contexts, context.inRoom = true → room.ShownBy context)
    (hold : ∀ place, room.coordinates = some place → place ∈ history.seenCoordinates) :
    contexts.foldl observeRoomContext history = history := by
  induction contexts with
  | nil => rfl
  | cons context rest ih =>
      have hkept : history.observeRoomContext context = history := by
        by_cases hroom : context.inRoom = true
        · exact observe_unrecorded (h context List.mem_cons_self hroom) hold
        · exact observe_outside hroom
      rw [List.foldl_cons, hkept]
      exact ih fun context hmem => h context (List.mem_cons_of_mem _ hmem)

/-- A stay is no more than its first context that is read in the room. -/
theorem foldl_contexts {room : RoomVisit} (contexts : List RoomContext)
    (h : ∀ context ∈ contexts, context.inRoom = true → room.ShownBy context) :
    contexts.foldl observeRoomContext history =
      ((contexts.find? (·.inRoom)).map history.observeRoomContext).getD history := by
  induction contexts with
  | nil => rfl
  | cons context rest ih =>
      have hrest : ∀ context ∈ rest, context.inRoom = true → room.ShownBy context :=
        fun context hmem => h context (List.mem_cons_of_mem _ hmem)
      rw [List.foldl_cons]
      by_cases hroom : context.inRoom = true
      · rw [List.find?_cons_of_pos hroom]
        have hshown := h context List.mem_cons_self hroom
        refine foldl_unrecorded _ rest hrest fun place hplace => ?_
        by_cases hold : place ∈ history.seenCoordinates
        · -- Then the first context changed nothing either.
          rwa [observe_unrecorded hshown fun other hother => ?_]
          rw [hplace] at hother
          cases hother
          exact hold
        · rw [(observe_recorded hroom hshown hplace hold).2]
          exact Finset.mem_insert_self _ _
      · rw [List.find?_cons_of_neg hroom, observe_outside hroom]
        exact ih hrest

/-!
### One stay

The contexts of a stay are recorded as one visit, or not at all.
-/

section FoldlStay

variable {stay : Stay} {place : Int × Int}

/-- A stay adds nothing when no place is shown, or one that was recorded. -/
theorem foldl_stay_unrecorded
    (hold : ∀ place, stay.place = some place → place ∈ history.seenCoordinates) :
    stay.contexts.foldl observeRoomContext history = history := by
  rw [foldl_contexts stay.contexts stay.shown]
  unfold Stay.place at hold
  cases hfirst : stay.contexts.find? (·.inRoom) with
  | none => rfl
  | some context =>
      rw [hfirst] at hold
      exact observe_unrecorded (stay.shown context (List.mem_of_find?_eq_some hfirst)
        (List.find?_some hfirst)) hold

/-- A stay at a new place records the room. -/
theorem foldl_stay (hplace : stay.place = some place) (hnew : place ∉ history.seenCoordinates) :
    (stay.contexts.foldl observeRoomContext history).roomsVisited =
        history.roomsVisited ++ [⟨"room_visited", place.1, place.2, stay.room.roomType⟩] ∧
      (stay.contexts.foldl observeRoomContext history).seenCoordinates =
        insert place history.seenCoordinates := by
  rw [foldl_contexts stay.contexts stay.shown]
  unfold Stay.place at hplace
  rcases Option.bind_eq_some_iff.mp hplace with ⟨context, hfirst, hcoordinates⟩
  rw [hfirst]
  have hroom : context.inRoom = true := List.find?_some hfirst
  exact observe_recorded hroom
    (stay.shown context (List.mem_of_find?_eq_some hfirst) hroom) hcoordinates hnew

end FoldlStay

/-- The rooms among the stays that are recorded, after those at the given places. -/
def recorded : Finset (Int × Int) → List Stay → List HistoryEntry
  | _, [] => []
  | seen, stay :: rest =>
      match stay.place with
      | none => recorded seen rest
      | some place =>
          if place ∈ seen then recorded seen rest
          else ⟨"room_visited", place.1, place.2, stay.room.roomType⟩ ::
            recorded (insert place seen) rest

/-!
### The visits of a run

Visit by visit: a stay adds its visit, finds it there, or leaves none.
-/

section Recorded

variable {seen : Finset (Int × Int)} {stay : Stay} {place : Int × Int} (rest : List Stay)

theorem recorded_of_none (h : stay.place = none) :
    recorded seen (stay :: rest) = recorded seen rest := by
  rw [recorded, h]

theorem recorded_of_old (h : stay.place = some place) (hold : place ∈ seen) :
    recorded seen (stay :: rest) = recorded seen rest := by
  rw [recorded, h]
  exact if_pos hold

theorem recorded_of_new (h : stay.place = some place) (hnew : place ∉ seen) :
    recorded seen (stay :: rest) = ⟨"room_visited", place.1, place.2, stay.room.roomType⟩ ::
      recorded (insert place seen) rest := by
  rw [recorded, h]
  exact if_neg hnew

end Recorded

/-- The stays of a run add the rooms that are recorded. -/
theorem roomsVisited_stays (stays : List Stay) :
    ((stays.flatMap Stay.contexts).foldl observeRoomContext history).roomsVisited =
      history.roomsVisited ++ recorded history.seenCoordinates stays := by
  induction stays generalizing history with
  | nil => exact (List.append_nil _).symm
  | cons stay rest ih =>
      rw [List.flatMap_cons, List.foldl_append, ih]
      cases hplace : stay.place with
      | none =>
          rw [recorded_of_none rest hplace,
            foldl_stay_unrecorded fun place h => by rw [hplace] at h; cases h]
      | some place =>
          by_cases hold : place ∈ history.seenCoordinates
          · rw [recorded_of_old rest hplace hold, foldl_stay_unrecorded fun other hother => ?_]
            rw [hplace] at hother
            cases hother
            exact hold
          · rcases foldl_stay hplace hold with ⟨hvisited, hseen⟩
            rw [recorded_of_new rest hplace hold, hvisited, hseen, List.append_assoc]
            rfl

theorem length_recorded (seen : Finset (Int × Int)) (stays : List Stay) :
    (recorded seen stays).length ≤ stays.length := by
  induction stays generalizing seen with
  | nil => exact Nat.le_refl _
  | cons stay rest ih =>
      rw [recorded]
      split
      · exact Nat.le_succ_of_le (ih seen)
      · split
        · exact Nat.le_succ_of_le (ih seen)
        · exact Nat.succ_le_succ (ih _)

/-- Every room is recorded exactly when each is shown at a place of its own. -/
theorem recorded_eq_iff (seen : Finset (Int × Int)) (stays : List Stay) :
    (recorded seen stays).map some = stays.map (fun stay => stay.room.entry) ↔
      (∀ stay ∈ stays, ∃ place, stay.place = some place ∧ place ∉ seen) ∧
      (stays.map Stay.place).Nodup := by
  induction stays generalizing seen with
  | nil => simp [recorded]
  | cons stay rest ih =>
      -- A room that is left out is missing for good.
      have hmissing : ∀ {entries : List HistoryEntry}, entries.length ≤ rest.length →
          entries.map some ≠ (stay :: rest).map fun stay => stay.room.entry := by
        intro entries hlength heq
        have hlengths := congrArg List.length heq
        simp only [List.length_map, List.length_cons] at hlengths
        omega
      rw [List.forall_mem_cons, List.map_cons (f := Stay.place), List.nodup_cons]
      cases hplace : stay.place with
      | none =>
          rw [recorded_of_none rest hplace]
          refine iff_of_false (hmissing (length_recorded seen rest)) ?_
          rintro ⟨⟨⟨place, hsome, -⟩, -⟩, -⟩
          cases hsome
      | some place =>
          by_cases hold : place ∈ seen
          · rw [recorded_of_old rest hplace hold]
            refine iff_of_false (hmissing (length_recorded seen rest)) ?_
            rintro ⟨⟨⟨other, hsome, hnew⟩, -⟩, -⟩
            cases hsome
            exact hnew hold
          · have hentry : stay.room.entry =
                some ⟨"room_visited", place.1, place.2, stay.room.roomType⟩ := by
              have hshown : stay.place ≠ none := by rw [hplace]; exact Option.some_ne_none place
              unfold RoomVisit.entry
              rw [← Stay.place_eq hshown, hplace]
              rfl
            rw [recorded_of_new rest hplace hold, List.map_cons, List.map_cons, hentry,
              List.cons_eq_cons, ih (insert place seen)]
            constructor
            · rintro ⟨-, hrest, hnodup⟩
              refine ⟨⟨⟨place, rfl, hold⟩, fun other hother => ?_⟩, fun hmem => ?_, hnodup⟩
              · rcases hrest other hother with ⟨there, hthere, hnew⟩
                exact ⟨there, hthere, fun hmem => hnew (Finset.mem_insert_of_mem hmem)⟩
              · rcases List.mem_map.mp hmem with ⟨other, hother, hsame⟩
                rcases hrest other hother with ⟨there, hthere, hnew⟩
                rw [hsame] at hthere
                cases hthere
                exact hnew (Finset.mem_insert_self _ _)
            · rintro ⟨⟨-, hrest⟩, hfresh, hnodup⟩
              refine ⟨rfl, fun other hother => ?_, hnodup⟩
              rcases hrest other hother with ⟨there, hthere, hnew⟩
              refine ⟨there, hthere, fun hmem => ?_⟩
              rcases Finset.mem_insert.mp hmem with rfl | hmem
              · exact hfresh (List.mem_map.mpr ⟨other, hother, hthere⟩)
              · exact hnew hmem

/-- The history of contexts on the map and one stay after the other. -/
theorem roomsVisited_foldl (before : List RoomContext)
    (hbefore : ∀ context ∈ before, context.inRoom = false) (stays : List Stay) :
    ((before ++ stays.flatMap Stay.contexts).foldl observeRoomContext {}).roomsVisited =
      recorded ∅ stays := by
  have hmap : before.foldl observeRoomContext {} = {} := by
    refine foldl_unrecorded ⟨0, none, none, none⟩ before (fun context hmem hroom => ?_)
      fun place hplace => ?_
    · rw [hbefore context hmem] at hroom
      cases hroom
    · cases hplace
  rw [List.foldl_append, hmap, roomsVisited_stays]
  rfl

/-- All the rooms are shown at places of their own exactly when a context is read in
    each, and no two have the same coordinates. -/
theorem places_iff (stays : List Stay) :
    (∀ stay ∈ stays, ∃ place, stay.place = some place ∧ place ∉ (∅ : Finset (Int × Int))) ∧
        (stays.map Stay.place).Nodup ↔
      (∀ stay ∈ stays, stay.room.coordinates ≠ none ∧ stay.Seen) ∧
        (stays.map fun stay => stay.room.coordinates).Nodup := by
  have hshown : (∀ stay ∈ stays, ∃ place, stay.place = some place ∧
      place ∉ (∅ : Finset (Int × Int))) ↔
        ∀ stay ∈ stays, stay.room.coordinates ≠ none ∧ stay.Seen := by
    refine forall₂_congr fun stay _ => ?_
    rw [← Stay.place_ne_none_iff, Option.ne_none_iff_exists']
    simp
  rw [hshown]
  refine and_congr_right fun hall => ?_
  rw [List.map_congr_left fun stay hmem =>
    Stay.place_eq ((Stay.place_ne_none_iff stay).mpr (hall stay hmem))]

end HistoryBuilder

namespace Instance

/-!
### The law

When the record has the rooms that were visited, each once.
-/

section Runs

variable (env : RunEnv W Φ κ β) (facade : Facade)

/-- After every run, the history of the root holds one entry for each room that was
    entered, exactly when a decision was read in each room, and each room has coordinates
    that no other room of the run has. -/
theorem one_visit_per_room_iff {config : Fields} {world : W} {access : GameAccess}
    {start : Instance W Φ κ β} (hconstruct : Constructs env config world access start)
    (requests : List Request) {before : List RoomContext}
    (hbefore : ∀ context ∈ before, context.inRoom = false) {stays : List Stay}
    (hcontexts : (Run.final (step env facade) start requests).rootContexts =
      before ++ stays.flatMap Stay.contexts) :
    (Run.final (step env facade) start requests).rootHistory.roomsVisited.map some =
        stays.map (fun stay => stay.room.entry) ↔
      (∀ stay ∈ stays, stay.room.coordinates ≠ none ∧ stay.Seen) ∧
      (stays.map fun stay => stay.room.coordinates).Nodup := by
  have hrecounts : Recounts (Run.final (step env facade) start requests) :=
    recounts_of_run env facade hconstruct requests
  unfold Recounts at hrecounts
  rw [hrecounts, hcontexts, HistoryBuilder.roomsVisited_foldl before hbefore,
    HistoryBuilder.recorded_eq_iff, HistoryBuilder.places_iff]

end Runs

/-!
### A run through two acts

Rooms of two acts with the same coordinates are one visit.
-/

section RoomsRun

/-- The context on the map. -/
def mapContext : RoomContext where
  inRoom := false
  roomType := none
  column := none
  row := none
  fields := [("room_type", .null), ("in_room", .bool false), ("act_index", .int 0),
    ("column", .null), ("row", .null)]

/-- The context of a room of the first column. -/
def roomContextAt (actIndex row : Int) : RoomContext where
  inRoom := true
  roomType := some "EventRoom"
  column := some 0
  row := some row
  fields := [("room_type", .str "EventRoom"), ("in_room", .bool true),
    ("act_index", .int actIndex), ("column", .int 0), ("row", .int row)]

/-- A run through two events of an act and an event of the next one. The treasure room
    after them is left before a context of it can be read. -/
def roomsContext : Nat → RoomContext
  | 1 => roomContextAt 0 1
  | 3 => roomContextAt 0 3
  | 5 => roomContextAt 1 1
  | _ => mapContext

/-- A game that is in a room or on the map according to its time. -/
def roomsRun : RunEnv Nat Unit Unit Unit :=
  { smallRun with
    emulator := { smallEmulator with
      getObservation := fun time =>
        (.ok ⟨if (roomsContext time).inRoom then .eventChoice else .mapSelect, "", []⟩, time)
      getRoomContext := fun time => (.ok (roomsContext time), time) } }

/-- An instance of that game at its start. -/
def roomsInstance : Instance Nat Unit Unit Unit := (construct roomsRun [] (blank 0 {})).2

/-- The room of the map, or the one option of an event. -/
def roomsChoice (time : Nat) : PyStr := if (roomsContext time).inRoom then "9" else "7"

/-- The first commits of the run. -/
def visitRooms (count : Nat) : List Request :=
  (List.range count).map fun time =>
    .call (.commitAction (Api.DecisionPointRegistry.idFor root (time + 1)) (roomsChoice time))

/-- A commit, up to its reply. -/
def visit (decisionPointId actionId : PyStr) : Op Nat Unit Unit Unit View := do
  let view ← rootView roomsRun
  let chosen ← Act.ofExcept (resolveActionId view.legalActions actionId)
  let _ ← advanceRun roomsRun view chosen
  Act.modify (Instance.recorded decisionPointId actionId)
  cancelAndReleaseAllBranches roomsRun
  maybeCaptureMapSnapshot roomsRun
  Act.modify fun inst => { inst with decisionPoints := inst.decisionPoints.issue root }
  rootView roomsRun

/-- The instance after so many commits. -/
def afterRooms : Nat → Instance Nat Unit Unit Unit
  | 0 => roomsInstance
  | time + 1 => (visit (Api.DecisionPointRegistry.idFor root (time + 1)) (roomsChoice time)
      (afterRooms time)).2

/-- The reply to a commit is made from the instance it leaves. -/
theorem commit_rooms {time : Nat} (h : time < 7) : ∃ view,
    commitAction roomsRun (Api.DecisionPointRegistry.idFor root (time + 1)) (roomsChoice time)
      (afterRooms time) = rootDecisionReply view (afterRooms (time + 1)) := by
  have hview : ∃ view, (visit (Api.DecisionPointRegistry.idFor root (time + 1))
      (roomsChoice time) (afterRooms time)).1 = .ok view := by
    interval_cases time <;> exact ⟨_, rfl⟩
  rcases hview with ⟨view, hview⟩
  interval_cases time <;> cases hview <;> exact ⟨_, rfl⟩

theorem rootDecisionReply_state (view : View) (inst : Instance W Φ κ β) :
    (rootDecisionReply view inst).2 = inst :=
  (keeps_rootDecisionReply (I := (· = inst)) view).after rfl

/-- What the run has come to after each of its requests. -/
theorem final_rooms {count : Nat} (h : count ≤ 7) :
    Run.final (step roomsRun .base) roomsInstance (visitRooms count) = afterRooms count := by
  induction count with
  | zero => rfl
  | succ time ih =>
      rcases commit_rooms h with ⟨view, hcommit⟩
      unfold visitRooms
      rw [List.range_succ, List.map_append, List.map_singleton, Run.final_concat]
      have hbefore := ih (Nat.le_of_succ_le h)
      unfold visitRooms at hbefore
      rw [hbefore]
      have hstep : (step roomsRun .base (afterRooms time) (.call (.commitAction
          (Api.DecisionPointRegistry.idFor root (time + 1)) (roomsChoice time)))).1 =
            (commitAction roomsRun (Api.DecisionPointRegistry.idFor root (time + 1))
              (roomsChoice time) (afterRooms time)).2 :=
        congrArg Prod.snd (Act.map_apply (afterRooms time) (commitAction roomsRun _ _) Json.obj)
      rw [hstep, hcommit, rootDecisionReply_state]

/-- A stay in an event, with so many decisions in it and so many on the map after it. -/
def eventStay (actIndex row : Int) (count after : Nat) : Stay where
  room := ⟨actIndex, some 0, some row, some "EventRoom"⟩
  contexts := List.replicate count (roomContextAt actIndex row) ++ List.replicate after mapContext
  shown := by
    intro context hmem hroom
    rcases List.mem_append.mp hmem with hmem | hmem
    · rw [List.eq_of_mem_replicate hmem]
      exact ⟨by simp [roomContextAt, Dict.lookupL], rfl, rfl, rfl⟩
    · rw [List.eq_of_mem_replicate hmem] at hroom
      cases hroom

/-- A treasure room, which is entered and left within one choice. -/
def treasureRoom : Stay where
  room := ⟨1, some 0, some 2, some "TreasureRoom"⟩
  contexts := [mapContext]
  shown := by decide +kernel

/-- The event of the next act stands where the first event stood, and is not recorded. A
    treasure room at a place of its own is not recorded either. -/
theorem two_acts_one_visit : Constructs roomsRun [] 0 {} roomsInstance ∧
    (Run.final (step roomsRun .base) roomsInstance (visitRooms 5)).rootContexts =
      [mapContext] ++ [eventStay 0 1 2 2, eventStay 0 3 2 2, eventStay 1 1 1 0].flatMap
        Stay.contexts ∧
    (Run.final (step roomsRun .base) roomsInstance
        (visitRooms 5)).rootHistory.roomsVisited.map some ≠
      [eventStay 0 1 2 2, eventStay 0 3 2 2, eventStay 1 1 1 0].map
        (fun stay => stay.room.entry) ∧
    treasureRoom.room.entry ∉ (Run.final (step roomsRun .base) roomsInstance
      (visitRooms 7)).rootHistory.roomsVisited.map some := by
  rw [final_rooms (by decide), final_rooms (by decide)]
  exact ⟨rfl, by decide +kernel, by decide +kernel, by decide +kernel⟩

/-- The history of the first act is complete, and with the two rooms of the next act it is
    not. -/
theorem one_visit_per_room_small :
    (Run.final (step roomsRun .base) roomsInstance
        (visitRooms 3)).rootHistory.roomsVisited.map some =
      [eventStay 0 1 2 2, eventStay 0 3 1 0].map (fun stay => stay.room.entry) ∧
    ((Run.final (step roomsRun .base) roomsInstance
        (visitRooms 7)).rootHistory.roomsVisited.map some =
      [eventStay 0 1 2 2, eventStay 0 3 2 2, eventStay 1 1 2 2, treasureRoom].map
        (fun stay => stay.room.entry) ↔
      (∀ stay ∈ [eventStay 0 1 2 2, eventStay 0 3 2 2, eventStay 1 1 2 2, treasureRoom],
        stay.room.coordinates ≠ none ∧ stay.Seen) ∧
      ([eventStay 0 1 2 2, eventStay 0 3 2 2, eventStay 1 1 2 2, treasureRoom].map
        fun stay => stay.room.coordinates).Nodup) := by
  have hconstruct : Constructs roomsRun [] 0 {} roomsInstance := rfl
  -- The run begins at the map, which is in no room.
  have hbefore : ∀ context ∈ [mapContext], context.inRoom = false := by decide +kernel
  -- After three requests it has left one event and is in another.
  have hfirst : (Run.final (step roomsRun .base) roomsInstance (visitRooms 3)).rootContexts =
      [mapContext] ++ [eventStay 0 1 2 2, eventStay 0 3 1 0].flatMap Stay.contexts := by
    rw [final_rooms (by decide)]
    decide +kernel
  -- After seven it has been in three events and in a room of treasure.
  have hboth : (Run.final (step roomsRun .base) roomsInstance (visitRooms 7)).rootContexts =
      [mapContext] ++ [eventStay 0 1 2 2, eventStay 0 3 2 2, eventStay 1 1 2 2,
        treasureRoom].flatMap Stay.contexts := by
    rw [final_rooms (by decide)]
    decide +kernel
  -- Every room of the first part has coordinates and was seen from inside.
  have hseen : ∀ stay ∈ [eventStay 0 1 2 2, eventStay 0 3 1 0],
      stay.room.coordinates ≠ none ∧ stay.Seen := by
    unfold Stay.Seen
    decide +kernel
  exact ⟨(one_visit_per_room_iff roomsRun .base hconstruct (visitRooms 3) hbefore hfirst).mpr
      ⟨hseen, by decide +kernel⟩,
    one_visit_per_room_iff roomsRun .base hconstruct (visitRooms 7) hbefore hboth⟩

end RoomsRun

end Instance

end WholeRun

end STS2RL
