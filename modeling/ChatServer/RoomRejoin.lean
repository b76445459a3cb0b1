import ChatServer.RoomInvariant

/-!
# `/join R`, `/leave`, `/join R` against `/join R`

Run one whole command at a time from a registry that satisfies the
invariant, the sequence `/join R`, `/leave`, `/join R` of one session ends
where `/join R` alone ends, up to the addresses of room records.  The
first `/join` leaves the session's current room; from there, the four ways
a join can go decide what the `/leave` undoes:

* no slot of `rooms[]` is free, or the room is full: the session joins
  nothing, the `/leave` replies that it is in no room, and the second
  `/join` fails the same way;
* the room exists with room to spare: the session takes the first free
  member slot, the `/leave` clears it again without reaping the room (it
  keeps its other members), and the second `/join` takes the same slot;
* the room is new: the `/leave` reaps it, which frees its slot of
  `rooms[]` and its record, and the second `/join` creates the room again
  in the same slot, at the next fresh address.

Only in the last case do the two ends differ, by the swap of the two fresh
addresses.
-/

namespace ChatServer.RoomRejoin

open ChatServer.Basic ChatServer.Rooms ChatServer.RoomInvariant

/-- Commands of one session, each run whole on the registry the previous one left. -/
def runCommands (connection : ConnPtr) : List RoomCommand → Registry → Registry
  | [], s => s
  | command :: rest, s => runCommands connection rest (command.run connection s).1

/--
Two registries that agree on what the room commands read, once room
pointers are renamed by `rename`: which slots of `rooms[]` hold which room,
the record of each listed room (its name, member slots and count), and the
`room` pointer of every connection.
-/
structure Renamed (rename : Equiv.Perm RoomPtr) (s t : Registry) : Prop where
  rooms : ∀ index, t.rooms index = (s.rooms index).map rename
  records : ∀ index, recordAt t index = recordAt s index
  roomOf : ∀ connection, t.roomOf connection = (s.roomOf connection).map rename

theorem Renamed.refl (s : Registry) : Renamed (Equiv.refl _) s s :=
  ⟨fun _ => by simp, fun _ => rfl, fun _ => by simp⟩

/-! ## A member added and removed again -/

/-- Erasing a member just inserted gives the room back. -/
theorem eraseMember_insertMember {r : Room} {connection : ConnPtr} {slot : Fin roomCapacity}
    (first : firstFree r.members = some slot)
    (absent : ∀ other, r.members other ≠ some connection) :
    (r.insertMember connection).eraseMember connection = r := by
  have restored : Function.update r.members slot none = r.members :=
    Function.update_eq_self_iff.mpr (firstFree_eq_some.mp first).1.symm
  rw [insertMember_eq first, eraseMember_eq (Function.update_same _ _ _) (fun other again => ?_)
    (Nat.succ_pos _)]
  · simp only [Function.update_idem, restored, Nat.add_sub_cancel]
  · by_contra different
    exact absent other (by simpa [Function.update_noteq different] using again)

section Registry

variable {s : Registry} {connection : ConnPtr}

/-- A listed room is never empty. -/
theorem isEmpty_of_listed (inv : Inv s) {index : Fin maxRooms} {r : Room}
    (records : recordAt s index = some r) : r.isEmpty = false := by
  have positive := inv.count_pos records
  rw [inv.count_eq records] at positive
  cases empty : r.isEmpty
  · rfl
  · rw [RoomInvariant.isEmpty_iff, ← occupied_eq_empty] at empty
    simp [empty] at positive

/-- A connection in no room occupies no member slot. -/
theorem not_member_of_absent (inv : Inv s) (absent : s.roomOf connection = none)
    {index : Fin maxRooms} {room : RoomPtr} {r : Room} (listed : s.rooms index = some room)
    (record : s.heap room = some r) (slot : Fin roomCapacity) :
    r.members slot ≠ some connection := fun member => by
  have current : s.roomOf connection = some room := inv.roomOf_iff.mpr ⟨index, slot, listed,
    by simp [memberAt, recordAt_of_listed listed record, member]⟩
  rw [absent] at current
  cases current

/-- A connection in no room that joins a listed room and leaves it restores the registry. -/
theorem leave_after_addMember (inv : Inv s) (absent : s.roomOf connection = none)
    {index : Fin maxRooms} {room : RoomPtr} {r : Room} (listed : s.rooms index = some room)
    (record : s.heap room = some r) (below : r.memberCount < roomCapacity) :
    (handleLeave connection (roomAddMember room connection s)).1 = s := by
  have fewer : (occupied r.members).card < roomCapacity := by
    rw [← inv.count_eq (recordAt_of_listed listed record)]
    exact below
  obtain ⟨slot, first⟩ := Option.isSome_iff_exists.mp (firstFree_isSome_of_card_lt fewer)
  have erased := eraseMember_insertMember first (not_member_of_absent inv absent listed record)
  have kept := isEmpty_of_listed inv (recordAt_of_listed listed record)
  have heap : Function.update s.heap room (some r) = s.heap :=
    Function.update_eq_self_iff.mpr record.symm
  have roomOf : Function.update s.roomOf connection none = s.roomOf :=
    Function.update_eq_self_iff.mpr absent.symm
  rw [roomAddMember_of_below record below,
    handleLeave_of_room (Function.update_same _ _ _) (Function.update_same _ _ _)]
  unfold roomRemoveMember
  simp only [Function.update_same, erased, kept, Bool.false_eq_true, if_false, if_true,
    Function.update_idem, heap, roomOf]

/-! ## A room created and reaped again -/

/-- Every listed room lies below the allocator's next address. -/
theorem lt_nextRoom_of_listed (layout : Layout s) {index : Fin maxRooms} {room : RoomPtr}
    (listed : s.rooms index = some room) : room < s.nextRoom :=
  Nat.lt_of_not_le fun big => by simpa [layout.fresh big] using layout.allocated listed

/--
`/join` of a room that does not exist, from a registry where the session is
in no room and whose allocator hands out `next`: the room is created in the
first free slot with the session as its only member.
-/
theorem joinValid_of_fresh (absent : s.roomOf connection = none) {name : List Char}
    (missing : roomFind name s = none) {index : Fin maxRooms}
    (free : firstFree s.rooms = some index) (next : RoomPtr) :
    (joinValid connection name { s with nextRoom := next }).1 =
      { s with
        rooms := Function.update s.rooms index (some next)
        heap := Function.update s.heap next (some ((newRoom name).insertMember connection))
        nextRoom := next + 1
        roomOf := Function.update s.roomOf connection (some next) } := by
  have empty : (newRoom name).memberCount < roomCapacity := by simp [newRoom, roomCapacity]
  have created : roomCreate name (leaveCurrent connection { s with nextRoom := next }) =
      ({ s with
          rooms := Function.update s.rooms index (some next)
          heap := Function.update s.heap next (some (newRoom name))
          nextRoom := next + 1 }, some next) := by
    rw [leaveCurrent_of_none (show ({ s with nextRoom := next } : Registry).roomOf connection = none
      from absent)]
    exact roomCreate_of_missing missing free
  rw [joinValid_of_below created (Function.update_same _ _ _) empty,
    roomAddMember_of_below (Function.update_same _ _ _) empty]
  simp only [Function.update_idem]

/-- Leaving a room created for the session alone reaps it: only the allocator has moved. -/
theorem leave_after_create (inv : Inv s) (absent : s.roomOf connection = none)
    {name : List Char} {index : Fin maxRooms} (free : s.rooms index = none) :
    (handleLeave connection
        { s with
          rooms := Function.update s.rooms index (some s.nextRoom)
          heap := Function.update s.heap s.nextRoom
            (some ((newRoom name).insertMember connection))
          nextRoom := s.nextRoom + 1
          roomOf := Function.update s.roomOf connection (some s.nextRoom) }).1 =
      { s with nextRoom := s.nextRoom + 1 } := by
  have erased : ((newRoom name).insertMember connection).eraseMember connection = newRoom name :=
    eraseMember_insertMember (firstFree_newRoom name) fun _ => by simp [newRoom]
  have emptied : (newRoom name).isEmpty = true := RoomInvariant.isEmpty_iff.mpr fun _ => rfl
  have rooms : Function.update s.rooms index none = s.rooms :=
    Function.update_eq_self_iff.mpr free.symm
  have heap : Function.update s.heap s.nextRoom none = s.heap :=
    Function.update_eq_self_iff.mpr (inv.fresh le_rfl).symm
  have roomOf : Function.update s.roomOf connection none = s.roomOf :=
    Function.update_eq_self_iff.mpr absent.symm
  have reaped : reap s.nextRoom (Function.update s.rooms index (some s.nextRoom)) =
      Function.update (Function.update s.rooms index (some s.nextRoom)) index none :=
    reap_eq (Function.update_same _ _ _) fun other listed => by
      by_contra different
      rw [Function.update_noteq different] at listed
      exact inv.ne_next listed rfl
  rw [handleLeave_of_room (Function.update_same _ _ _) (Function.update_same _ _ _)]
  unfold roomRemoveMember
  simp only [Function.update_same, erased, emptied, if_true, reaped, Function.update_idem,
    rooms, heap, roomOf]

/-- The room created at the next address and the one created at a later fresh address. -/
theorem renamed_fresh (inv : Inv s) {index : Fin maxRooms} (free : s.rooms index = none)
    (r : Room) {next : RoomPtr} (later : s.nextRoom ≤ next) :
    Renamed (Equiv.swap s.nextRoom next)
      { s with
        rooms := Function.update s.rooms index (some s.nextRoom)
        heap := Function.update s.heap s.nextRoom (some r)
        nextRoom := s.nextRoom + 1
        roomOf := Function.update s.roomOf connection (some s.nextRoom) }
      { s with
        rooms := Function.update s.rooms index (some next)
        heap := Function.update s.heap next (some r)
        nextRoom := next + 1
        roomOf := Function.update s.roomOf connection (some next) } := by
  have fixed : ∀ {i room}, s.rooms i = some room → Equiv.swap s.nextRoom next room = room ∧
      room ≠ s.nextRoom ∧ room ≠ next := fun {_ room} listed => by
    have below := lt_nextRoom_of_listed inv.toLayout listed
    have beforeNext : room ≠ next := Nat.ne_of_lt (Nat.lt_of_lt_of_le below later)
    exact ⟨Equiv.swap_apply_of_ne_of_ne (Nat.ne_of_lt below) beforeNext, Nat.ne_of_lt below,
      beforeNext⟩
  refine ⟨fun i => ?_, fun i => ?_, fun c => ?_⟩
  · by_cases same : i = index
    · subst same
      simp
    · cases listed : s.rooms i with
      | none => simp [same, listed]
      | some room => simp [same, listed, (fixed listed).1]
  · by_cases same : i = index
    · subst same
      simp [recordAt]
    · cases listed : s.rooms i with
      | none => simp [recordAt, same, listed]
      | some room => simp [recordAt, same, listed, (fixed listed).2.1, (fixed listed).2.2]
  · by_cases same : c = connection
    · subst same
      simp
    · cases current : s.roomOf c with
      | none => simp [same, current]
      | some room =>
          obtain ⟨i, -, -, listed, -⟩ := inv.current current
          simp [same, current, (fixed listed).1]

end Registry

/-! ## The three commands against one -/

/-- The rejoin from a registry in which the session is in no room. -/
theorem rejoin_of_absent {s : Registry} (inv : Inv s) {connection : ConnPtr}
    (absent : s.roomOf connection = none) (name : List Char) :
    ∃ rename : Equiv.Perm RoomPtr, Renamed rename (joinValid connection name s).1
      (joinValid connection name
        (handleLeave connection (joinValid connection name s).1).1).1 := by
  have left : leaveCurrent connection s = s := leaveCurrent_of_none absent
  cases found : roomFind name s with
  | some room =>
      obtain ⟨index, listed, -⟩ := roomFind_eq_some found
      obtain ⟨r, record⟩ := Option.isSome_iff_exists.mp (inv.allocated listed)
      have created : roomCreate name (leaveCurrent connection s) = (s, some room) := by
        rw [left]
        exact roomCreate_of_found found
      by_cases below : r.memberCount < roomCapacity
      · have joined := joinValid_of_below created record below
        rw [joined, leave_after_addMember inv absent listed record below, joined]
        exact ⟨_, Renamed.refl _⟩
      · have refused := joinValid_of_full created record (Nat.not_lt.mp below)
        rw [refused, handleLeave_of_none absent, refused]
        exact ⟨_, Renamed.refl _⟩
  | none =>
      cases slotFound : firstFree s.rooms with
      | none =>
          have created : roomCreate name (leaveCurrent connection s) = (s, none) := by
            rw [left]
            exact roomCreate_of_full found slotFound
          rw [joinValid_of_noSlot created, handleLeave_of_none absent, joinValid_of_noSlot created]
          exact ⟨_, Renamed.refl _⟩
      | some index =>
          have first := joinValid_of_fresh absent found slotFound s.nextRoom
          change (joinValid connection name s).1 = _ at first
          rw [first, leave_after_create inv absent (firstFree_eq_some.mp slotFound).1,
            joinValid_of_fresh absent found slotFound]
          exact ⟨_, renamed_fresh inv (firstFree_eq_some.mp slotFound).1 _ (Nat.le_succ _)⟩

/--
From every registry satisfying the invariant, for every session and valid
room name, `/join R`, `/leave`, `/join R` run one at a time end in the
registry `/join R` alone gives, up to a renaming of room records: the same
slots of `rooms[]` hold the same (renamed) rooms with the same names,
member slots and counts, and every connection's `room` is the same
(renamed) room.
-/
theorem rejoin_matches_join {s : Registry} (inv : Inv s) (connection : ConnPtr)
    {name : List Char} (valid : isValidRoomname name = true) :
    ∃ rename : Equiv.Perm RoomPtr,
      Renamed rename (runCommands connection [.join (some name) none] s)
        (runCommands connection [.join (some name) none, .leave, .join (some name) none] s) := by
  obtain ⟨inv₁, absent⟩ := inv.leaveCurrent connection
  have again : joinValid connection name (leaveCurrent connection s) =
      joinValid connection name s := by
    unfold joinValid
    rw [leaveCurrent_of_none absent]
  simp only [runCommands, RoomCommand.run, handleJoin_of_valid valid]
  rw [← again]
  exact rejoin_of_absent inv₁ absent name

theorem rejoin_matches_join_from_start :
    Inv Registry.initial ∧ isValidRoomname ['r'] = true ∧
      ∃ rename : Equiv.Perm RoomPtr,
        Renamed rename (runCommands 0 [.join (some ['r']) none] Registry.initial)
          (runCommands 0 [.join (some ['r']) none, .leave, .join (some ['r']) none]
            Registry.initial) :=
  ⟨inv_initial, by decide, rejoin_matches_join inv_initial 0 (by decide)⟩

end ChatServer.RoomRejoin
