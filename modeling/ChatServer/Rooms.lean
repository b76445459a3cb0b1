import ChatServer.Basic

/-!
# The room registry

`rooms[]` holds pointers to heap-allocated `room_t` records, and every
`connection_t` records in its `room` field the room it is in.  This module
models the four room functions of `server.c` (`room_find`, `room_create`,
`room_add_member`, `room_remove_member`) as functions on one registry state,
and on top of them the `/join`, `/leave` and teardown branches of
`client_handler`, each executed as one whole command.

Room pointers are heap addresses.  `calloc` returns the allocator's next
fresh address and `free` erases the record, so a pointer that outlives its
room dangles instead of silently denoting a new one.  Reading a freed room
is undefined behaviour in C; the functions below leave the state unchanged
there, and the invariant of `ChatServer.RoomInvariant` shows that the
commands never reach that case.

Room-level locking (`rooms_mutex`, `room->mutex`) is invisible here, where a
command runs alone; `ChatServer.RoomRaces` splits the same functions into
their critical sections.
-/

namespace ChatServer.Rooms

open ChatServer.Basic

/-- A `connection_t *`: the identity of a session record. -/
abbrev ConnPtr := Nat

/-- A `room_t *`: the heap address of a room record. -/
abbrev RoomPtr := Nat

/-- `room_t` without its mutex: the name, the member slots and `member_count`. -/
structure Room where
  name : List Char
  members : Fin roomCapacity → Option ConnPtr
  memberCount : Nat

/--
The registry: `rooms[]`, the room records on the heap, the allocator's next
fresh address, and the `room` field of every connection.
-/
structure Registry where
  rooms : Fin maxRooms → Option RoomPtr
  heap : RoomPtr → Option Room
  nextRoom : RoomPtr
  roomOf : ConnPtr → Option RoomPtr

/-- The registry at server start: `rooms[] = {0}`, and `calloc` leaves every `room` NULL. -/
def Registry.initial : Registry :=
  ⟨fun _ => none, fun _ => none, 0, fun _ => none⟩

/-! ## `room_find` and `room_create` -/

/-- The name of the room in slot `index`, when the slot holds an allocated room. -/
def Registry.nameAt (s : Registry) (index : Fin maxRooms) : Option (List Char) :=
  (s.rooms index).bind fun room => (s.heap room).map Room.name

/-- `room_find`: the room of the first slot whose room is called `name`. -/
def roomFind (name : List Char) (s : Registry) : Option RoomPtr :=
  (Fin.find fun index => s.nameAt index = some name).bind s.rooms

/-- The record that `calloc` and `strncpy(room->name, name, ROOM_NAME_LEN - 1)` build. -/
def newRoom (name : List Char) : Room :=
  ⟨name.take (roomNameLen - 1), fun _ => none, 0⟩

/--
The section of `room_create` under `rooms_mutex`: allocate a room and install
it in the first free slot of `rooms[]`, or report that no slot is free.
-/
def roomCreateLocked (name : List Char) (s : Registry) : Registry × Option RoomPtr :=
  match firstFree s.rooms with
  | some index =>
      ({ s with
          rooms := Function.update s.rooms index (some s.nextRoom)
          heap := Function.update s.heap s.nextRoom (some (newRoom name))
          nextRoom := s.nextRoom + 1 },
        some s.nextRoom)
  | none => (s, none)

/-- `room_create`: the room called `name` if `room_find` sees one, else a new room. -/
def roomCreate (name : List Char) (s : Registry) : Registry × Option RoomPtr :=
  match roomFind name s with
  | some room => (s, some room)
  | none => roomCreateLocked name s

section CreateEquations

variable {name : List Char} {s : Registry} {room : RoomPtr}

theorem roomCreate_of_found (found : roomFind name s = some room) :
    roomCreate name s = (s, some room) := by
  unfold roomCreate
  rw [found]

theorem roomCreate_of_missing {index : Fin maxRooms} (missing : roomFind name s = none)
    (free : firstFree s.rooms = some index) :
    roomCreate name s =
      ({ s with
          rooms := Function.update s.rooms index (some s.nextRoom)
          heap := Function.update s.heap s.nextRoom (some (newRoom name))
          nextRoom := s.nextRoom + 1 },
        some s.nextRoom) := by
  unfold roomCreate roomCreateLocked
  rw [missing, free]

theorem roomCreate_of_full (missing : roomFind name s = none)
    (full : firstFree s.rooms = none) : roomCreate name s = (s, none) := by
  unfold roomCreate roomCreateLocked
  rw [missing, full]

end CreateEquations

/-! ## `room_add_member` and `room_remove_member` -/

/-- The insertion loop of `room_add_member`: fill the first NULL member slot. -/
def Room.insertMember (r : Room) (connection : ConnPtr) : Room :=
  match firstFree r.members with
  | some index =>
      { r with
        members := Function.update r.members index (some connection)
        memberCount := r.memberCount + 1 }
  | none => r

/--
`room_add_member`: a room at capacity is left alone and `connection->room` is
not touched; otherwise the member is inserted and `connection->room` set.
-/
def roomAddMember (room : RoomPtr) (connection : ConnPtr) (s : Registry) : Registry :=
  match s.heap room with
  | none => s
  | some r =>
      if roomCapacity ≤ r.memberCount then s
      else
        { s with
          heap := Function.update s.heap room (some (r.insertMember connection))
          roomOf := Function.update s.roomOf connection (some room) }

theorem roomAddMember_of_below {room : RoomPtr} {connection : ConnPtr} {s : Registry}
    {r : Room} (record : s.heap room = some r) (below : r.memberCount < roomCapacity) :
    roomAddMember room connection s =
      { s with
        heap := Function.update s.heap room (some (r.insertMember connection))
        roomOf := Function.update s.roomOf connection (some room) } := by
  simp [roomAddMember, record, Nat.not_le.mpr below]

/--
The removal loop of `room_remove_member`: clear the first slot holding
`connection` and decrement a positive `member_count`.
-/
def Room.eraseMember (r : Room) (connection : ConnPtr) : Room :=
  match firstHolding r.members connection with
  | some index =>
      { r with
        members := Function.update r.members index none
        memberCount := if 0 < r.memberCount then r.memberCount - 1 else r.memberCount }
  | none => r

/-- The emptiness scan of `room_remove_member`: no member slot is non-NULL. -/
def Room.isEmpty (r : Room) : Bool :=
  (Fin.find fun index => (r.members index).isSome).isNone

/-- The reap under `rooms_mutex`: clear the first slot of `rooms[]` holding `room`. -/
def reap (room : RoomPtr) (rooms : Fin maxRooms → Option RoomPtr) :
    Fin maxRooms → Option RoomPtr :=
  match firstHolding rooms room with
  | some index => Function.update rooms index none
  | none => rooms

/--
`room_remove_member`: erase the member; an emptied room is reaped from
`rooms[]` and freed; `connection->room` is cleared if it pointed here.
-/
def roomRemoveMember (room : RoomPtr) (connection : ConnPtr) (s : Registry) :
    Registry :=
  match s.heap room with
  | none => s
  | some r =>
      let erased := r.eraseMember connection
      let s' : Registry :=
        if erased.isEmpty then
          { s with
            rooms := reap room s.rooms
            heap := Function.update s.heap room none }
        else { s with heap := Function.update s.heap room (some erased) }
      if s'.roomOf connection = some room then
        { s' with roomOf := Function.update s'.roomOf connection none }
      else s'

/-! ## The room commands of `client_handler` -/

/-- The replies the room commands send on the client's socket. -/
inductive RoomReply where
  | joinUsage
  | invalidRoomName
  | roomSlotsFull
  | roomFull
  | joined (roomName : List Char)
  | left (roomName : List Char)
  | notInRoom
  deriving DecidableEq, Repr

/-- The bytes of a reply, as `client_handler` formats it for the user `username`. -/
def RoomReply.text (username : List Char) : RoomReply → List Char
  | .joinUsage => "[ERROR] Usage: /join <room>\n".toList
  | .invalidRoomName =>
      "[ERROR] Room name must be 1–32 alphanumeric characters.\n".toList
  | .roomSlotsFull =>
      "[WARN] Room slots are full. Room is not created. Try again later.\n".toList
  | .roomFull => "[WARN] Room is full\n".toList
  | .joined roomName =>
      "[OK] User \"".toList ++ username ++ "\" joined the room: ".toList ++
        roomName ++ "\n".toList
  | .left roomName =>
      "[INFO] User \"".toList ++ username ++ "\" left the room: ".toList ++
        roomName ++ "\n".toList
  | .notInRoom =>
      "[INFO] User \"".toList ++ username ++ "\" is not in any room\n".toList

/-- The commands that touch the registry: `/join <room> [extra]`, `/leave`, teardown. -/
inductive RoomCommand where
  | join (roomName extra : Option (List Char))
  | leave
  | teardown
  deriving DecidableEq, Repr

/-- Leave the current room, as `/join` and teardown do first. -/
def leaveCurrent (connection : ConnPtr) (s : Registry) : Registry :=
  match s.roomOf connection with
  | some current => roomRemoveMember current connection s
  | none => s

theorem leaveCurrent_of_room {connection : ConnPtr} {s : Registry} {room : RoomPtr}
    (current : s.roomOf connection = some room) :
    leaveCurrent connection s = roomRemoveMember room connection s := by
  simp [leaveCurrent, current]

theorem leaveCurrent_of_none {connection : ConnPtr} {s : Registry}
    (current : s.roomOf connection = none) : leaveCurrent connection s = s := by
  simp [leaveCurrent, current]

/--
The `/join` branch after argument checks: leave the current room, then
`room_create`, the unlocked `member_count` check and `room_add_member`.
-/
def joinValid (connection : ConnPtr) (name : List Char) (s : Registry) :
    Registry × Option RoomReply :=
  match roomCreate name (leaveCurrent connection s) with
  | (s', none) => (s', some .roomSlotsFull)
  | (s', some room) =>
      match s'.heap room with
      | some r =>
          if roomCapacity ≤ r.memberCount then (s', some .roomFull)
          else (roomAddMember room connection s', some (.joined r.name))
      | none => (s', none)

section JoinEquations

variable {connection : ConnPtr} {name : List Char} {s s' : Registry}

theorem joinValid_of_noSlot (created : roomCreate name (leaveCurrent connection s) = (s', none)) :
    joinValid connection name s = (s', some .roomSlotsFull) := by
  unfold joinValid
  rw [created]

theorem joinValid_of_full {room : RoomPtr} {r : Room}
    (created : roomCreate name (leaveCurrent connection s) = (s', some room))
    (record : s'.heap room = some r) (full : roomCapacity ≤ r.memberCount) :
    joinValid connection name s = (s', some .roomFull) := by
  unfold joinValid
  simp only [created, record, if_pos full]

theorem joinValid_of_below {room : RoomPtr} {r : Room}
    (created : roomCreate name (leaveCurrent connection s) = (s', some room))
    (record : s'.heap room = some r) (below : r.memberCount < roomCapacity) :
    joinValid connection name s =
      (roomAddMember room connection s', some (.joined r.name)) := by
  unfold joinValid
  simp only [created, record, if_neg (Nat.not_le.mpr below)]

end JoinEquations

/-- The `/join` branch of `client_handler`. -/
def handleJoin (connection : ConnPtr) (roomName extra : Option (List Char))
    (s : Registry) : Registry × Option RoomReply :=
  match roomName, extra with
  | some name, none =>
      if isValidRoomname name then joinValid connection name s
      else (s, some .invalidRoomName)
  | _, _ => (s, some .joinUsage)

/-- The `/leave` branch of `client_handler`. -/
def handleLeave (connection : ConnPtr) (s : Registry) : Registry × Option RoomReply :=
  match s.roomOf connection with
  | some room =>
      match s.heap room with
      | some r => (roomRemoveMember room connection s, some (.left r.name))
      | none => (s, none)
  | none => (s, some .notInRoom)

theorem handleJoin_of_valid {connection : ConnPtr} {name : List Char} {s : Registry}
    (valid : isValidRoomname name = true) :
    handleJoin connection (some name) none s = joinValid connection name s := by
  simp [handleJoin, valid]

/-- Every `/join` that does not reach `joinValid` leaves the registry unchanged. -/
theorem handleJoin_of_rejected {connection : ConnPtr} {roomName extra : Option (List Char)}
    {s : Registry}
    (rejected : ∀ name, roomName = some name → extra = none → isValidRoomname name = false) :
    (handleJoin connection roomName extra s).1 = s := by
  rcases roomName with _ | name <;> rcases extra with _ | extra
  · rfl
  · rfl
  · simp [handleJoin, rejected name rfl rfl]
  · rfl

theorem handleLeave_of_room {connection : ConnPtr} {s : Registry} {room : RoomPtr} {r : Room}
    (current : s.roomOf connection = some room) (record : s.heap room = some r) :
    handleLeave connection s = (roomRemoveMember room connection s, some (.left r.name)) := by
  simp [handleLeave, current, record]

theorem handleLeave_of_none {connection : ConnPtr} {s : Registry}
    (current : s.roomOf connection = none) :
    handleLeave connection s = (s, some .notInRoom) := by
  simp [handleLeave, current]

/-- One room command of `connection`, with the reply it sends (teardown sends none). -/
def RoomCommand.run (connection : ConnPtr) : RoomCommand → Registry →
    Registry × Option RoomReply
  | .join roomName extra, s => handleJoin connection roomName extra s
  | .leave, s => handleLeave connection s
  | .teardown, s => (leaveCurrent connection s, none)

/-- The registry states reached from server start by whole room commands. -/
inductive Reachable : Registry → Prop
  | initial : Reachable Registry.initial
  | step {s : Registry} (connection : ConnPtr) (command : RoomCommand) :
      Reachable s → Reachable (command.run connection s).1

end ChatServer.Rooms
