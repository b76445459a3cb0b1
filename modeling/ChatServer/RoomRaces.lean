import ChatServer.RoomInvariant

/-!
# Room commands under interleaving

`ChatServer.Rooms` runs every room command as one atomic step.  In the
server each `client_handler` thread runs its commands itself, and the
functions it calls take `rooms_mutex` and `room->mutex` only around parts of
their work: `room_find` and the insertion of `room_create` are two critical
sections, the emptiness check of `room_remove_member` and its reap are two
more, and the `member_count` check of `/join` reads the room with no lock.

This module gives every handler a program counter that stops before each of
these atomic steps, and a deterministic step for the handler's next one.  A
schedule is a list of events, each a command arriving at an idle handler or
one step of a handler.  Run alone, a handler reproduces the whole-command
model; interleaved, two `/join`s of the same new name both miss it in
`room_find` and both create it, leaving two rooms of one name that no
sequence of whole commands reaches.

Touching a freed room is undefined behaviour in C; a handler that does so
moves to `faulted` and stops.
-/

namespace ChatServer.RoomRaces

open ChatServer.Basic ChatServer.Rooms

/-- What a handler does once its `room_remove_member` returns. -/
inductive AfterRemove where
  /-- `/join name` goes on with `room_create`. -/
  | join (name : List Char)
  /-- `/leave` sends the reply it formatted before the removal. -/
  | leave (reply : RoomReply)
  /-- Teardown goes on to close the sockets. -/
  | teardown

/-- Where a handler stands in a room command: before which atomic step. -/
inductive Pc where
  | idle
  /-- Before the `room->mutex` section of `room_remove_member`. -/
  | removing (room : RoomPtr) (after : AfterRemove)
  /-- The room was found empty: before the reap under `rooms_mutex`. -/
  | reaping (room : RoomPtr) (after : AfterRemove)
  /-- Before `pthread_mutex_destroy` and `free(room)`. -/
  | freeing (room : RoomPtr) (after : AfterRemove)
  /-- Before `room_find` in `room_create`. -/
  | finding (name : List Char)
  /-- `room_find` returned NULL: before the section of `room_create` under `rooms_mutex`. -/
  | creating (name : List Char)
  /-- Before the unlocked read of `room->member_count`. -/
  | sizing (name : List Char) (room : RoomPtr)
  /-- Before `room_add_member`. -/
  | adding (name : List Char) (room : RoomPtr)
  /-- The handler touched a freed room. -/
  | faulted
  /-- The handler has finished its teardown. -/
  | exited

/-- The registry, every handler's program counter, and the replies each has sent. -/
structure RaceState where
  registry : Registry
  pc : ConnPtr → Pc
  sent : ConnPtr → List RoomReply

/-- The server at start: an empty registry and every handler idle. -/
def RaceState.initial : RaceState :=
  ⟨Registry.initial, fun _ => .idle, fun _ => []⟩

/-- Handler `connection` moves to `pc` without touching the registry. -/
def RaceState.setPc (s : RaceState) (connection : ConnPtr) (pc : Pc) : RaceState :=
  { s with pc := Function.update s.pc connection pc }

/-- Handler `connection` moves to `pc`, leaving the registry `registry`. -/
def RaceState.moveTo (s : RaceState) (connection : ConnPtr) (pc : Pc) (registry : Registry) :
    RaceState :=
  { s with registry := registry, pc := Function.update s.pc connection pc }

/-- Handler `connection` sends `reply` and is idle again. -/
def RaceState.reply (s : RaceState) (connection : ConnPtr) (reply : RoomReply) :
    RaceState :=
  { s with
    pc := Function.update s.pc connection .idle
    sent := Function.update s.sent connection (s.sent connection ++ [reply]) }

/-- The end of `room_remove_member`: clear `connection->room`, then go on with the command. -/
def RaceState.finishRemove (s : RaceState) (connection : ConnPtr) (room : RoomPtr)
    (after : AfterRemove) (registry : Registry) : RaceState :=
  let registry :=
    if registry.roomOf connection = some room then
      { registry with roomOf := Function.update registry.roomOf connection none }
    else registry
  match after with
  | .join name => s.moveTo connection (.finding name) registry
  | .leave reply => { s with registry := registry }.reply connection reply
  | .teardown => s.moveTo connection .exited registry

/--
A command line arriving at the idle handler of `connection`: the argument
checks, and the first step's choice between leaving the current room and
going straight on.  `/leave` formats its reply from `room->name` first.
-/
def issue (connection : ConnPtr) (command : RoomCommand) (s : RaceState) : RaceState :=
  match command with
  | .join (some name) none =>
      if isValidRoomname name then
        match s.registry.roomOf connection with
        | some current => s.setPc connection (.removing current (.join name))
        | none => s.setPc connection (.finding name)
      else s.reply connection .invalidRoomName
  | .join _ _ => s.reply connection .joinUsage
  | .leave =>
      match s.registry.roomOf connection with
      | some current =>
          match s.registry.heap current with
          | some r => s.setPc connection (.removing current (.leave (.left r.name)))
          | none => s.setPc connection .faulted
      | none => s.reply connection .notInRoom
  | .teardown =>
      match s.registry.roomOf connection with
      | some current => s.setPc connection (.removing current .teardown)
      | none => s.setPc connection .exited

/-- The next atomic step of the handler of `connection`; `none` when it has none. -/
def advance (connection : ConnPtr) (s : RaceState) : Option RaceState :=
  let reg := s.registry
  match s.pc connection with
  | .removing room after =>
      match reg.heap room with
      | none => some (s.setPc connection .faulted)
      | some r =>
          let erased := r.eraseMember connection
          let reg' := { reg with heap := Function.update reg.heap room (some erased) }
          if erased.isEmpty then some (s.moveTo connection (.reaping room after) reg')
          else some (s.finishRemove connection room after reg')
  | .reaping room after =>
      some (s.moveTo connection (.freeing room after) { reg with rooms := reap room reg.rooms })
  | .freeing room after =>
      match reg.heap room with
      | none => some (s.setPc connection .faulted)
      | some _ =>
          some (s.finishRemove connection room after
            { reg with heap := Function.update reg.heap room none })
  | .finding name =>
      match roomFind name reg with
      | some room => some (s.setPc connection (.sizing name room))
      | none => some (s.setPc connection (.creating name))
  | .creating name =>
      match roomCreateLocked name reg with
      | (reg', some room) => some (s.moveTo connection (.sizing name room) reg')
      | (reg', none) => some ({ s with registry := reg' }.reply connection .roomSlotsFull)
  | .sizing name room =>
      match reg.heap room with
      | none => some (s.setPc connection .faulted)
      | some r =>
          if roomCapacity ≤ r.memberCount then some (s.reply connection .roomFull)
          else some (s.setPc connection (.adding name room))
  | .adding _ room =>
      match reg.heap room with
      | none => some (s.setPc connection .faulted)
      | some r =>
          some ({ s with registry := roomAddMember room connection reg }.reply
            connection (.joined r.name))
  | .idle | .faulted | .exited => none

/-- One event of a schedule. -/
inductive Event where
  /-- A command line reaches the handler of `connection`, which must be idle. -/
  | command (connection : ConnPtr) (command : RoomCommand)
  /-- The handler of `connection` takes its next atomic step. -/
  | move (connection : ConnPtr)

/-- The state after one event, when the event can happen. -/
def RaceState.apply (s : RaceState) : Event → Option RaceState
  | .command connection command =>
      match s.pc connection with
      | .idle => some (issue connection command s)
      | _ => none
  | .move connection => advance connection s

/-- The schedule `events` takes the state `s` to `s'`. -/
inductive Run (s : RaceState) : List Event → RaceState → Prop
  | nil : Run s [] s
  | snoc {events : List Event} {s' s'' : RaceState} {event : Event} :
      Run s events s' → s'.apply event = some s'' → Run s (events ++ [event]) s''

/-! ## The steps of `/join` -/

section Transitions

variable {s : RaceState} {name : List Char}

section Fields

variable {connection : ConnPtr}

@[simp]
theorem setPc_registry {pc : Pc} : (s.setPc connection pc).registry = s.registry := rfl

@[simp]
theorem setPc_pc {pc : Pc} : (s.setPc connection pc).pc = Function.update s.pc connection pc :=
  rfl

@[simp]
theorem setPc_sent {pc : Pc} : (s.setPc connection pc).sent = s.sent := rfl

@[simp]
theorem moveTo_registry {pc : Pc} {registry : Registry} :
    (s.moveTo connection pc registry).registry = registry := rfl

@[simp]
theorem moveTo_pc {pc : Pc} {registry : Registry} :
    (s.moveTo connection pc registry).pc = Function.update s.pc connection pc := rfl

@[simp]
theorem moveTo_sent {pc : Pc} {registry : Registry} :
    (s.moveTo connection pc registry).sent = s.sent := rfl

@[simp]
theorem reply_registry {reply : RoomReply} : (s.reply connection reply).registry = s.registry :=
  rfl

@[simp]
theorem reply_pc {reply : RoomReply} :
    (s.reply connection reply).pc = Function.update s.pc connection .idle := rfl

@[simp]
theorem reply_sent {reply : RoomReply} :
    (s.reply connection reply).sent =
      Function.update s.sent connection (s.sent connection ++ [reply]) := rfl

end Fields

variable (connection : ConnPtr)

/-- `/join name` with a valid name at a handler in no room goes straight to `room_find`. -/
theorem apply_join_outside (idle : s.pc connection = .idle)
    (valid : isValidRoomname name = true) (outside : s.registry.roomOf connection = none) :
    s.apply (.command connection (.join (some name) none)) =
      some (s.setPc connection (.finding name)) := by
  simp [RaceState.apply, idle, issue, valid, outside]

theorem move_finding_missing (finding : s.pc connection = .finding name)
    (missing : roomFind name s.registry = none) :
    s.apply (.move connection) = some (s.setPc connection (.creating name)) := by
  simp [RaceState.apply, advance, finding, missing]

/-- The section of `room_create` under `rooms_mutex` installs a room in the first free slot. -/
theorem move_creating (creating : s.pc connection = .creating name)
    {index : Fin maxRooms} (free : firstFree s.registry.rooms = some index) :
    s.apply (.move connection) =
      some (s.moveTo connection (.sizing name s.registry.nextRoom)
        { s.registry with
          rooms := Function.update s.registry.rooms index (some s.registry.nextRoom)
          heap := Function.update s.registry.heap s.registry.nextRoom (some (newRoom name))
          nextRoom := s.registry.nextRoom + 1 }) := by
  simp [RaceState.apply, advance, creating, roomCreateLocked, free]

theorem move_sizing_below {room : RoomPtr} {r : Room}
    (sizing : s.pc connection = .sizing name room) (record : s.registry.heap room = some r)
    (below : r.memberCount < roomCapacity) :
    s.apply (.move connection) = some (s.setPc connection (.adding name room)) := by
  simp [RaceState.apply, advance, sizing, record, Nat.not_le.mpr below]

/-- `room_add_member`, then the `[OK]` reply, whatever `room_add_member` did. -/
theorem move_adding {room : RoomPtr} {r : Room}
    (adding : s.pc connection = .adding name room) (record : s.registry.heap room = some r) :
    s.apply (.move connection) =
      some ({ s with registry := roomAddMember room connection s.registry }.reply
        connection (.joined r.name)) := by
  simp [RaceState.apply, advance, adding, record]

end Transitions

/-! ## Two `/join`s of one new name -/

theorem roomFind_of_unnamed {name : List Char} {reg : Registry}
    (unnamed : ∀ index, reg.nameAt index ≠ some name) : roomFind name reg = none := by
  simp [roomFind, Fin.find_eq_none_iff.mpr unnamed]

/-- Two listed rooms of one name are out of reach of whole commands. -/
theorem unreachable_of_shared_name {reg : Registry} (i j : Fin maxRooms) (name : List Char)
    (distinct : i ≠ j) (first : reg.nameAt i = some name) (second : reg.nameAt j = some name) :
    ¬ Rooms.Reachable reg := fun reachable => by
  rw [RoomInvariant.nameAt_eq] at first second
  obtain ⟨r, record, named⟩ := Option.map_eq_some'.mp first
  obtain ⟨r', record', named'⟩ := Option.map_eq_some'.mp second
  exact distinct ((RoomInvariant.inv_of_reachable reachable).name_unique record record'
    (named.trans named'.symm))

/--
Sessions 1 and 2, in no room, send `/join R` while no room `R` exists; both
handlers pass `room_find` before either enters `room_create`'s section.
-/
def joinJoinRace : List Event :=
  [.command 1 (.join (some ['R']) none), .command 2 (.join (some ['R']) none),
   .move 1, .move 2, .move 1, .move 2, .move 1, .move 1, .move 2, .move 2]

/--
Under `joinJoinRace` both handlers create a room `R` and both report `[OK]`:
`rooms[0]` and `rooms[1]` then hold two rooms of one name, a registry that no
sequence of whole commands reaches.
-/
theorem join_race_duplicates_room :
    ∃ s, Run RaceState.initial joinJoinRace s ∧
      s.pc 1 = .idle ∧ s.pc 2 = .idle ∧
      s.sent 1 = [.joined ['R']] ∧ s.sent 2 = [.joined ['R']] ∧
      s.registry.nameAt ⟨0, by decide⟩ = some ['R'] ∧
      s.registry.nameAt ⟨1, by decide⟩ = some ['R'] ∧
      ¬ Rooms.Reachable s.registry := by
  have valid : isValidRoomname ['R'] = true := by decide
  have missing : roomFind ['R'] Registry.initial = none :=
    roomFind_of_unnamed fun _ => by simp [Registry.nameAt, Registry.initial]
  have free0 : firstFree Registry.initial.rooms = some ⟨0, by decide⟩ :=
    firstFree_eq_some.mpr ⟨rfl, fun other _ => Nat.zero_le other.val⟩
  have free1 : firstFree (Function.update Registry.initial.rooms ⟨0, by decide⟩ (some 0)) =
      some ⟨1, by decide⟩ := by
    refine firstFree_eq_some.mpr ⟨by simp [Registry.initial], fun other empty => ?_⟩
    by_contra smaller
    have below : other.val < 1 := Nat.lt_of_not_le smaller
    have zero : other = ⟨0, by decide⟩ := Fin.ext (by show other.val = 0; omega)
    subst zero
    simp at empty
  have r1 := (Run.nil (s := RaceState.initial)).snoc (apply_join_outside 1 rfl valid rfl)
  have r2 := r1.snoc (apply_join_outside 2 rfl valid rfl)
  have r3 := r2.snoc (move_finding_missing 1 rfl missing)
  have r4 := r3.snoc (move_finding_missing 2 rfl missing)
  have r5 := r4.snoc (move_creating 1 rfl free0)
  have r6 := r5.snoc (move_creating 2 rfl free1)
  have r7 := r6.snoc (move_sizing_below 1 rfl rfl (by decide))
  have r8 := r7.snoc (move_adding 1 rfl rfl)
  have r9 := r8.snoc (move_sizing_below 2 rfl rfl (by decide))
  have r10 := r9.snoc (move_adding 2 rfl rfl)
  refine ⟨_, r10, rfl, rfl, rfl, rfl, rfl, rfl, ?_⟩
  refine unreachable_of_shared_name ⟨0, by decide⟩ ⟨1, by decide⟩ ['R'] (by decide) ?_ ?_
    <;> rfl

end ChatServer.RoomRaces
