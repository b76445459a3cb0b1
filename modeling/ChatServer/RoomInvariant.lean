import ChatServer.Rooms

/-!
# The registry invariant

Executed one whole command at a time, the room commands keep the registry in
the shape its comments describe: room names are unique, every listed room
has between one and `ROOM_CAPACITY` members and `member_count` counts them,
every connection sits in at most one member slot of at most one room, and
`connection->room` is that room.

The proof follows the commands through the four ways they change the
registry: erasing a member that is not the last, reaping and freeing a room
whose last member leaves, inserting a member into a listed room, and
installing a fresh room with its first member.  For each, the lemmas below
first describe the new `rooms[]` and member slots in terms of the old ones,
and then re-establish the invariant from that description.
-/

namespace ChatServer.RoomInvariant

open ChatServer.Basic ChatServer.Rooms

/-- The record of the room in slot `index` of `rooms[]`. -/
def recordAt (s : Registry) (index : Fin maxRooms) : Option Room :=
  (s.rooms index).bind s.heap

/-- The connection in member slot `slot` of the room in slot `index`. -/
def memberAt (s : Registry) (index : Fin maxRooms) (slot : Fin roomCapacity) :
    Option ConnPtr :=
  (recordAt s index).bind fun r => r.members slot

/-- The shape of `rooms[]`: allocated rooms, a fresh allocator, one slot per room, unique names. -/
structure Layout (s : Registry) : Prop where
  allocated : ∀ {index room}, s.rooms index = some room → (s.heap room).isSome
  fresh : ∀ {room}, s.nextRoom ≤ room → s.heap room = none
  slot_unique : ∀ {i j room}, s.rooms i = some room → s.rooms j = some room → i = j
  name_unique : ∀ {i j r r'}, recordAt s i = some r → recordAt s j = some r' →
    r.name = r'.name → i = j

/-- The registry invariant, over the rooms reachable from `rooms[]`. -/
structure Inv (s : Registry) extends Layout s : Prop where
  count_pos : ∀ {index r}, recordAt s index = some r → 0 < r.memberCount
  count_eq : ∀ {index r}, recordAt s index = some r →
    r.memberCount = (occupied r.members).card
  member_unique : ∀ {i j k l connection}, memberAt s i k = some connection →
    memberAt s j l = some connection → i = j ∧ k = l
  roomOf_iff : ∀ {connection room}, s.roomOf connection = some room ↔
    ∃ i k, s.rooms i = some room ∧ memberAt s i k = some connection

theorem inv_initial : Inv Registry.initial where
  allocated := by simp [Registry.initial]
  fresh := by simp [Registry.initial]
  slot_unique := by simp [Registry.initial]
  name_unique := by simp [recordAt, Registry.initial]
  count_pos := by simp [recordAt, Registry.initial]
  count_eq := by simp [recordAt, Registry.initial]
  member_unique := by simp [memberAt, recordAt, Registry.initial]
  roomOf_iff := by simp [Registry.initial]

/-! ## Reading the invariant -/

section Reading

variable {s : Registry} {connection : ConnPtr} {room : RoomPtr}

theorem recordAt_of_listed {index : Fin maxRooms} {r : Room}
    (listed : s.rooms index = some room) (record : s.heap room = some r) :
    recordAt s index = some r := by
  simp [recordAt, listed, record]

/-- The current room of a connection: its slot, its record and the member slot. -/
theorem Inv.current (inv : Inv s) (current : s.roomOf connection = some room) :
    ∃ index r slot, s.rooms index = some room ∧ s.heap room = some r ∧
      r.members slot = some connection := by
  obtain ⟨index, slot, listed, member⟩ := inv.roomOf_iff.mp current
  obtain ⟨r, record⟩ := Option.isSome_iff_exists.mp (inv.allocated listed)
  refine ⟨index, r, slot, listed, record, ?_⟩
  simpa [memberAt, recordAt_of_listed listed record] using member

/-- In a listed room, a connection occupies one member slot only. -/
theorem Inv.slot_of_member (inv : Inv s) {index : Fin maxRooms} {r : Room}
    {slot other : Fin roomCapacity} (listed : s.rooms index = some room)
    (record : s.heap room = some r) (member : r.members slot = some connection)
    (again : r.members other = some connection) : other = slot := by
  have records := recordAt_of_listed listed record
  have atOther : memberAt s index other = some connection := by
    simp [memberAt, records, again]
  have atSlot : memberAt s index slot = some connection := by
    simp [memberAt, records, member]
  exact (inv.member_unique atOther atSlot).2

/-- A listed room never holds more than `ROOM_CAPACITY` members. -/
theorem Inv.count_le (inv : Inv s) {index : Fin maxRooms} {r : Room}
    (records : recordAt s index = some r) : r.memberCount ≤ roomCapacity := by
  rw [inv.count_eq records]
  simpa using Finset.card_le_univ (occupied r.members)

end Reading

/-! ## Specification of the room functions -/

theorem roomFind_eq_some {name : List Char} {s : Registry} {room : RoomPtr}
    (found : roomFind name s = some room) :
    ∃ index, s.rooms index = some room ∧ s.nameAt index = some name := by
  unfold roomFind at found
  cases first : Fin.find (fun index => s.nameAt index = some name) with
  | none => simp [first] at found
  | some index =>
      simp only [first, Option.some_bind] at found
      exact ⟨index, found, Fin.find_spec _ first⟩

theorem roomFind_eq_none {name : List Char} {s : Registry}
    (missing : roomFind name s = none) (index : Fin maxRooms) :
    s.nameAt index ≠ some name := by
  intro named
  unfold roomFind at missing
  cases first : Fin.find (fun index => s.nameAt index = some name) with
  | none => exact (Fin.find_eq_none_iff.mp first) index named
  | some found =>
      have foundNamed : s.nameAt found = some name := Fin.find_spec _ first
      simp only [first, Option.some_bind] at missing
      simp [Registry.nameAt, missing] at foundNamed

theorem isEmpty_iff {r : Room} :
    r.isEmpty = true ↔ ∀ slot, r.members slot = none := by
  simp [Room.isEmpty, Fin.find_eq_none_iff, Option.isSome_iff_ne_none]

/-- Erasing a member that occupies exactly one slot of a non-empty room. -/
theorem eraseMember_eq {r : Room} {connection : ConnPtr} {slot : Fin roomCapacity}
    (member : r.members slot = some connection)
    (only : ∀ other, r.members other = some connection → other = slot)
    (positive : 0 < r.memberCount) :
    r.eraseMember connection =
      { r with
        members := Function.update r.members slot none
        memberCount := r.memberCount - 1 } := by
  have first : firstHolding r.members connection = some slot :=
    firstHolding_eq_some.mpr ⟨member, fun other again => (only other again).ge⟩
  simp [Room.eraseMember, first, positive]

/-- Reaping a room that sits in exactly one slot clears that slot. -/
theorem reap_eq {rooms : Fin maxRooms → Option RoomPtr} {room : RoomPtr}
    {index : Fin maxRooms} (listed : rooms index = some room)
    (only : ∀ other, rooms other = some room → other = index) :
    reap room rooms = Function.update rooms index none := by
  have first : firstHolding rooms room = some index :=
    firstHolding_eq_some.mpr ⟨listed, fun other again => (only other again).ge⟩
  simp [reap, first]

/-! ## One connection leaves or joins -/

section Relocation

variable {s s' : Registry} {connection : ConnPtr}

theorem listed_of_memberAt {i : Fin maxRooms} {k : Fin roomCapacity} {c : ConnPtr}
    (member : memberAt s i k = some c) : ∃ room, s.rooms i = some room := by
  cases listed : s.rooms i with
  | none => simp [memberAt, recordAt, listed] at member
  | some room => exact ⟨room, rfl⟩

/-- A registry invariant's last two fields survive `connection` leaving its slot. -/
theorem members_of_leave (inv : Inv s)
    (positions : ∀ i k c, memberAt s' i k = some c ↔
      memberAt s i k = some c ∧ c ≠ connection)
    (roomsKept : ∀ i k c, memberAt s' i k = some c → s'.rooms i = s.rooms i)
    (roomOf : s'.roomOf = Function.update s.roomOf connection none) :
    (∀ {i j k l c}, memberAt s' i k = some c → memberAt s' j l = some c →
      i = j ∧ k = l) ∧
    ∀ {c room}, s'.roomOf c = some room ↔
      ∃ i k, s'.rooms i = some room ∧ memberAt s' i k = some c := by
  refine ⟨fun first second =>
    inv.member_unique ((positions _ _ _).mp first).1 ((positions _ _ _).mp second).1, ?_⟩
  intro c room
  by_cases same : c = connection
  · subst same
    simp only [roomOf, Function.update_same, reduceCtorEq, false_iff]
    rintro ⟨i, k, -, member⟩
    exact ((positions i k c).mp member).2 rfl
  · rw [roomOf, Function.update_noteq same, inv.roomOf_iff]
    constructor
    · rintro ⟨i, k, listed, member⟩
      have member' := (positions i k c).mpr ⟨member, same⟩
      exact ⟨i, k, by rw [roomsKept i k c member', listed], member'⟩
    · rintro ⟨i, k, listed, member⟩
      exact ⟨i, k, by rw [← roomsKept i k c member, listed],
        ((positions i k c).mp member).1⟩

/-- A registry invariant's last two fields survive `connection` joining `room`. -/
theorem members_of_join (inv : Inv s) {index : Fin maxRooms} {slot : Fin roomCapacity}
    {room : RoomPtr} (absent : s.roomOf connection = none)
    (positions : ∀ i k c, memberAt s' i k = some c ↔
      memberAt s i k = some c ∨ (i = index ∧ k = slot ∧ c = connection))
    (roomsKept : ∀ i k c, memberAt s i k = some c → s'.rooms i = s.rooms i)
    (listed : s'.rooms index = some room)
    (roomOf : s'.roomOf = Function.update s.roomOf connection (some room)) :
    (∀ {i j k l c}, memberAt s' i k = some c → memberAt s' j l = some c →
      i = j ∧ k = l) ∧
    ∀ {c room}, s'.roomOf c = some room ↔
      ∃ i k, s'.rooms i = some room ∧ memberAt s' i k = some c := by
  have nowhere : ∀ i k, memberAt s i k ≠ some connection := by
    intro i k member
    obtain ⟨room', listed'⟩ := listed_of_memberAt member
    have := inv.roomOf_iff.mpr ⟨i, k, listed', member⟩
    rw [absent] at this
    cases this
  refine ⟨fun first second => ?_, ?_⟩
  · rcases (positions _ _ _).mp first with old | ⟨rfl, rfl, same⟩ <;>
      rcases (positions _ _ _).mp second with old' | ⟨rfl, rfl, same'⟩
    · exact inv.member_unique old old'
    · exact absurd (same' ▸ old) (nowhere _ _)
    · exact absurd (same ▸ old') (nowhere _ _)
    · exact ⟨rfl, rfl⟩
  · intro c room'
    by_cases same : c = connection
    · subst same
      rw [roomOf, Function.update_same]
      constructor
      · rintro ⟨⟩
        exact ⟨index, slot, listed, (positions _ _ _).mpr (.inr ⟨rfl, rfl, rfl⟩)⟩
      · rintro ⟨i, k, listed', member⟩
        rcases (positions i k c).mp member with old | ⟨rfl, rfl, -⟩
        · exact absurd old (nowhere _ _)
        · rw [listed] at listed'
          exact listed'
    · rw [roomOf, Function.update_noteq same, inv.roomOf_iff]
      have moved : ∀ i k, memberAt s' i k = some c ↔ memberAt s i k = some c := by
        intro i k
        rw [positions]
        simp [same]
      constructor
      · rintro ⟨i, k, listed', member⟩
        exact ⟨i, k, by rw [roomsKept i k c member, listed'], (moved i k).mpr member⟩
      · rintro ⟨i, k, listed', member⟩
        have old := (moved i k).mp member
        exact ⟨i, k, by rw [← roomsKept i k c old, listed'], old⟩

/-- Replacing the record of slot `index` changes the member view in that slot only. -/
theorem memberAt_of_records {index : Fin maxRooms} {x : Option Room}
    (records : recordAt s' = Function.update (recordAt s) index x)
    (i : Fin maxRooms) (k : Fin roomCapacity) :
    memberAt s' i k =
      if i = index then x.bind (fun r => r.members k) else memberAt s i k := by
  by_cases same : i = index
  · subst same
    simp [memberAt, records]
  · simp [memberAt, records, same]

/-- Names of slots whose records are kept or renamed to an old name stay unique. -/
theorem name_unique_of_kept (layout : Layout s)
    (kept : ∀ i a, recordAt s' i = some a →
      ∃ a₀, recordAt s i = some a₀ ∧ a₀.name = a.name)
    {i j : Fin maxRooms} {a b : Room} (first : recordAt s' i = some a)
    (second : recordAt s' j = some b) (same : a.name = b.name) : i = j := by
  obtain ⟨a₀, old, named⟩ := kept i a first
  obtain ⟨b₀, old', named'⟩ := kept j b second
  exact layout.name_unique old old' (by rw [named, named', same])

end Relocation

/-! ## The layout of `rooms[]` -/

section Layout

variable {s s' : Registry} {room : RoomPtr} {index : Fin maxRooms} {r r' : Room}

/-- Replacing the heap record of a listed room replaces the record of its slot. -/
theorem recordAt_setHeap (layout : Layout s) (listed : s.rooms index = some room)
    {x : Option Room} (rooms : s'.rooms = s.rooms)
    (heap : s'.heap = Function.update s.heap room x) :
    recordAt s' = Function.update (recordAt s) index x := by
  funext i
  by_cases same : i = index
  · subst same
    simp [recordAt, rooms, heap, listed]
  · cases other : s.rooms i with
    | none => simp [recordAt, rooms, other, same]
    | some room' =>
        have different : room' ≠ room := fun equal =>
          same (layout.slot_unique (equal ▸ other) listed)
        simp [recordAt, rooms, heap, other, same, different]

/-- Clearing the slot of a listed room and freeing the room clears its record. -/
theorem recordAt_free (layout : Layout s) (listed : s.rooms index = some room)
    (rooms : s'.rooms = Function.update s.rooms index none)
    (heap : s'.heap = Function.update s.heap room none) :
    recordAt s' = Function.update (recordAt s) index none := by
  funext i
  by_cases same : i = index
  · subst same
    simp [recordAt, rooms]
  · cases other : s.rooms i with
    | none => simp [recordAt, rooms, other, same]
    | some room' =>
        have different : room' ≠ room := fun equal =>
          same (layout.slot_unique (equal ▸ other) listed)
        simp [recordAt, rooms, heap, other, same, different]

/-- A listed room is below the allocator's next address. -/
theorem Layout.ne_next (layout : Layout s) {i : Fin maxRooms} {y : RoomPtr}
    (listed : s.rooms i = some y) : y ≠ s.nextRoom := by
  rintro rfl
  simpa [layout.fresh le_rfl] using layout.allocated listed

/-- Installing the next fresh address in a free slot gives that slot its record. -/
theorem recordAt_install (layout : Layout s) (free : s.rooms index = none)
    (rooms : s'.rooms = Function.update s.rooms index (some s.nextRoom))
    (heap : s'.heap = Function.update s.heap s.nextRoom (some r')) :
    recordAt s' = Function.update (recordAt s) index (some r') := by
  funext i
  by_cases same : i = index
  · subst same
    simp [recordAt, rooms, heap]
  · cases other : s.rooms i with
    | none => simp [recordAt, rooms, other, same]
    | some y => simp [recordAt, rooms, heap, other, same, layout.ne_next other]

/-- Replacing a listed room's record by one of the same name keeps the layout. -/
theorem Layout.setHeap (layout : Layout s) (listed : s.rooms index = some room)
    (record : s.heap room = some r) (rooms : s'.rooms = s.rooms)
    (heap : s'.heap = Function.update s.heap room (some r'))
    (next : s'.nextRoom = s.nextRoom) (named : r'.name = r.name) : Layout s' := by
  have records := recordAt_setHeap layout listed rooms heap
  refine ⟨fun {i y} listed' => ?_, fun {y} big => ?_,
    fun first second => layout.slot_unique (rooms ▸ first) (rooms ▸ second),
    name_unique_of_kept layout fun i a found => ?_⟩
  · rw [rooms] at listed'
    by_cases same : y = room
    · simp [heap, same]
    · simpa [heap, same] using layout.allocated listed'
  · rw [next] at big
    have different : y ≠ room := by
      rintro rfl
      rw [layout.fresh big] at record
      cases record
    simpa [heap, different] using layout.fresh big
  · rw [records, Function.update_apply] at found
    split_ifs at found with same
    · cases found
      exact ⟨r, same ▸ recordAt_of_listed listed record, named.symm⟩
    · exact ⟨a, found, rfl⟩

/-- Reaping and freeing a listed room keeps the layout. -/
theorem Layout.free (layout : Layout s) (listed : s.rooms index = some room)
    (rooms : s'.rooms = Function.update s.rooms index none)
    (heap : s'.heap = Function.update s.heap room none)
    (next : s'.nextRoom = s.nextRoom) : Layout s' := by
  have records := recordAt_free layout listed rooms heap
  have listedKept : ∀ {i y}, s'.rooms i = some y → s.rooms i = some y ∧ y ≠ room := by
    intro i y listed'
    rw [rooms, Function.update_apply] at listed'
    split_ifs at listed' with same
    exact ⟨listed', fun equal => same (layout.slot_unique listed' (equal ▸ listed))⟩
  refine ⟨fun listed' => ?_, fun {y} big => ?_,
    fun first second => layout.slot_unique (listedKept first).1 (listedKept second).1,
    name_unique_of_kept layout fun i a found => ⟨a, ?_, rfl⟩⟩
  · obtain ⟨listedOld, different⟩ := listedKept listed'
    simpa [heap, different] using layout.allocated listedOld
  · rw [heap, Function.update_apply]
    split_ifs
    · rfl
    · exact layout.fresh (next ▸ big)
  · rw [records, Function.update_apply] at found
    split_ifs at found
    exact found

/-- Installing a freshly allocated room with a new name in a free slot keeps the layout. -/
theorem Layout.install (layout : Layout s) (free : s.rooms index = none)
    (newName : ∀ j a, recordAt s j = some a → a.name ≠ r'.name)
    (rooms : s'.rooms = Function.update s.rooms index (some s.nextRoom))
    (heap : s'.heap = Function.update s.heap s.nextRoom (some r'))
    (next : s'.nextRoom = s.nextRoom + 1) : Layout s' := by
  have records := recordAt_install layout free rooms heap
  refine ⟨fun {i y} listed' => ?_, fun {y} big => ?_, fun {i j y} first second => ?_,
    fun {i j a b} first second same => ?_⟩
  · rw [rooms, Function.update_apply] at listed'
    split_ifs at listed'
    · cases listed'
      simp [heap]
    · simpa [heap, layout.ne_next listed'] using layout.allocated listed'
  · rw [next] at big
    have different : y ≠ s.nextRoom := by
      rintro rfl
      exact Nat.not_succ_le_self _ big
    simpa [heap, different] using layout.fresh (le_trans (Nat.le_succ _) big)
  · rw [rooms, Function.update_apply] at first second
    split_ifs at first second with atI atJ atJ
    · exact atI.trans atJ.symm
    · cases first
      exact absurd rfl (layout.ne_next second)
    · cases second
      exact absurd rfl (layout.ne_next first)
    · exact layout.slot_unique first second
  · rw [records, Function.update_apply] at first second
    split_ifs at first second with atI atJ atJ
    · exact atI.trans atJ.symm
    · cases first
      exact absurd same.symm (newName j b second)
    · cases second
      exact absurd same (newName i a first)
    · exact layout.name_unique first second same

end Layout

/-! ## A member leaves -/

section Leave

variable {s s' : Registry} {connection : ConnPtr} {room : RoomPtr} {index : Fin maxRooms}
  {r : Room} {slot : Fin roomCapacity}

/-- Clearing the one member slot a connection occupies removes it, and only it. -/
theorem positions_of_clear (inv : Inv s)
    (atSlot : memberAt s index slot = some connection)
    {view : Fin maxRooms → Fin roomCapacity → Option ConnPtr}
    (cleared : ∀ i k, view i k = if i = index ∧ k = slot then none else memberAt s i k)
    (i : Fin maxRooms) (k : Fin roomCapacity) (c : ConnPtr) :
    view i k = some c ↔ memberAt s i k = some c ∧ c ≠ connection := by
  rw [cleared]
  by_cases here : i = index ∧ k = slot
  · obtain ⟨rfl, rfl⟩ := here
    simp only [and_self, if_true, reduceCtorEq, false_iff, not_and, not_not]
    intro member
    rw [atSlot] at member
    exact (Option.some.inj member).symm
  · rw [if_neg here]
    constructor
    · intro member
      refine ⟨member, ?_⟩
      rintro rfl
      exact here (inv.member_unique member atSlot)
    · exact fun member => member.1

/-- Erasing a member that is not the last keeps the invariant. -/
theorem Inv.erase (inv : Inv s) (listed : s.rooms index = some room)
    (record : s.heap room = some r) (member : r.members slot = some connection)
    (several : 1 < r.memberCount) (rooms : s'.rooms = s.rooms)
    (heap : s'.heap = Function.update s.heap room
      (some { r with
        members := Function.update r.members slot none
        memberCount := r.memberCount - 1 }))
    (next : s'.nextRoom = s.nextRoom)
    (roomOf : s'.roomOf = Function.update s.roomOf connection none) : Inv s' := by
  have records := recordAt_setHeap inv.toLayout listed rooms heap
  have old := recordAt_of_listed listed record
  have atSlot : memberAt s index slot = some connection := by
    simp [memberAt, old, member]
  have cleared : ∀ i k, memberAt s' i k =
      if i = index ∧ k = slot then none else memberAt s i k := by
    intro i k
    rw [memberAt_of_records records]
    by_cases same : i = index
    · subst same
      by_cases here : k = slot
      · simp [here]
      · simp [here, memberAt, old]
    · simp [same]
  have members := members_of_leave inv (positions_of_clear inv atSlot cleared)
    (fun _ _ _ _ => rooms ▸ rfl) roomOf
  refine ⟨inv.setHeap listed record rooms heap next rfl, fun {i a} found => ?_,
    fun {i a} found => ?_, members.1, members.2⟩
  · rw [records, Function.update_apply] at found
    split_ifs at found
    · cases found
      simp only
      omega
    · exact inv.count_pos found
  · rw [records, Function.update_apply] at found
    split_ifs at found
    · cases found
      have cleared := card_occupied_clear (by simp [member] : (r.members slot).isSome)
      have counted := inv.count_eq old
      simp only
      omega
    · exact inv.count_eq found

/-- Reaping and freeing a room whose last member leaves keeps the invariant. -/
theorem Inv.free (inv : Inv s) (listed : s.rooms index = some room)
    (record : s.heap room = some r) (member : r.members slot = some connection)
    (last : r.memberCount = 1)
    (rooms : s'.rooms = Function.update s.rooms index none)
    (heap : s'.heap = Function.update s.heap room none)
    (next : s'.nextRoom = s.nextRoom)
    (roomOf : s'.roomOf = Function.update s.roomOf connection none) : Inv s' := by
  have records := recordAt_free inv.toLayout listed rooms heap
  have old := recordAt_of_listed listed record
  have atSlot : memberAt s index slot = some connection := by
    simp [memberAt, old, member]
  have alone : ∀ k, k ≠ slot → r.members k = none := by
    intro k other
    obtain ⟨single, occupiedEq⟩ :=
      Finset.card_eq_one.mp ((inv.count_eq old).symm.trans last)
    have atSingle : slot ∈ occupied r.members := by simp [member]
    rw [occupiedEq, Finset.mem_singleton] at atSingle
    by_contra taken
    have atK : k ∈ occupied r.members := by
      simpa [Option.isSome_iff_ne_none] using taken
    rw [occupiedEq, Finset.mem_singleton] at atK
    exact other (atK.trans atSingle.symm)
  have cleared : ∀ i k, memberAt s' i k =
      if i = index ∧ k = slot then none else memberAt s i k := by
    intro i k
    rw [memberAt_of_records records]
    by_cases same : i = index
    · subst same
      by_cases here : k = slot
      · simp [here]
      · simp [here, memberAt, old, alone k here]
    · simp [same]
  have kept : ∀ {i a}, recordAt s' i = some a → i ≠ index ∧ recordAt s i = some a := by
    intro i a found
    rw [records, Function.update_apply] at found
    split_ifs at found with same
    exact ⟨same, found⟩
  have roomsKept : ∀ i k c, memberAt s' i k = some c → s'.rooms i = s.rooms i := by
    intro i k c found
    obtain ⟨a, present, -⟩ := Option.bind_eq_some.mp found
    rw [rooms, Function.update_noteq (kept present).1]
  have members := members_of_leave inv (positions_of_clear inv atSlot cleared)
    roomsKept roomOf
  exact ⟨inv.toLayout.free listed rooms heap next,
    fun found => inv.count_pos (kept found).2, fun found => inv.count_eq (kept found).2,
    members.1, members.2⟩

end Leave

/-- An erased member leaves the room empty exactly when it was the last one. -/
theorem isEmpty_erased_iff {s : Registry} {index : Fin maxRooms} {r : Room}
    {slot : Fin roomCapacity} (inv : Inv s) (records : recordAt s index = some r)
    (taken : (r.members slot).isSome) :
    ({ r with
        members := Function.update r.members slot none
        memberCount := r.memberCount - 1 } : Room).isEmpty = true ↔
      r.memberCount = 1 := by
  rw [isEmpty_iff, ← occupied_eq_empty, ← Finset.card_eq_zero]
  have cleared := card_occupied_clear taken
  have counted := inv.count_eq records
  simp only at cleared ⊢
  omega

/-- `room_remove_member` on the current room keeps the invariant and clears `room`. -/
theorem Inv.roomRemoveMember {s : Registry} {connection : ConnPtr} {room : RoomPtr}
    (inv : Inv s) (current : s.roomOf connection = some room) :
    Inv (roomRemoveMember room connection s) ∧
      (roomRemoveMember room connection s).roomOf connection = none := by
  obtain ⟨index, r, slot, listed, record, member⟩ := inv.current current
  have records := recordAt_of_listed listed record
  have erased := eraseMember_eq member
    (fun _ again => inv.slot_of_member listed record member again)
    (inv.count_pos records)
  have emptyIff := isEmpty_erased_iff inv records
    (by simp [member] : (r.members slot).isSome)
  have reaped := reap_eq listed fun _ again => inv.slot_unique again listed
  unfold ChatServer.Rooms.roomRemoveMember
  simp only [record, erased]
  split_ifs with empty
  · refine ⟨inv.free listed record member (emptyIff.mp empty) ?_ rfl rfl rfl, by simp⟩
    dsimp only
    exact reaped
  · have several : 1 < r.memberCount := by
      have := inv.count_pos records
      have := mt emptyIff.mpr empty
      omega
    exact ⟨inv.erase listed record member several rfl rfl rfl rfl, by simp⟩

/-! ## A member joins -/

section Join

variable {s s' : Registry} {connection : ConnPtr} {room : RoomPtr} {index : Fin maxRooms}
  {r : Room} {slot : Fin roomCapacity}

/-- Filling one NULL member slot adds exactly that position. -/
theorem positions_of_fill (atSlot : memberAt s index slot = none)
    {view : Fin maxRooms → Fin roomCapacity → Option ConnPtr}
    (filled : ∀ i k, view i k =
      if i = index ∧ k = slot then some connection else memberAt s i k)
    (i : Fin maxRooms) (k : Fin roomCapacity) (c : ConnPtr) :
    view i k = some c ↔
      memberAt s i k = some c ∨ (i = index ∧ k = slot ∧ c = connection) := by
  rw [filled]
  by_cases here : i = index ∧ k = slot
  · obtain ⟨rfl, rfl⟩ := here
    simp [atSlot, eq_comm]
  · rw [if_neg here]
    exact ⟨Or.inl, fun found =>
      found.elim id fun ⟨atI, atK, _⟩ => absurd ⟨atI, atK⟩ here⟩

/-- Inserting a connection that is in no room into a listed room keeps the invariant. -/
theorem Inv.insert (inv : Inv s) (listed : s.rooms index = some room)
    (record : s.heap room = some r) (free : r.members slot = none)
    (absent : s.roomOf connection = none) (rooms : s'.rooms = s.rooms)
    (heap : s'.heap = Function.update s.heap room
      (some { r with
        members := Function.update r.members slot (some connection)
        memberCount := r.memberCount + 1 }))
    (next : s'.nextRoom = s.nextRoom)
    (roomOf : s'.roomOf = Function.update s.roomOf connection (some room)) : Inv s' := by
  have records := recordAt_setHeap inv.toLayout listed rooms heap
  have old := recordAt_of_listed listed record
  have atSlot : memberAt s index slot = none := by
    simp [memberAt, old, free]
  have filled : ∀ i k, memberAt s' i k =
      if i = index ∧ k = slot then some connection else memberAt s i k := by
    intro i k
    rw [memberAt_of_records records]
    by_cases same : i = index
    · subst same
      by_cases here : k = slot
      · simp [here]
      · simp [here, memberAt, old]
    · simp [same]
  have members := members_of_join inv absent (positions_of_fill atSlot filled)
    (fun _ _ _ _ => rooms ▸ rfl) (by rw [rooms]; exact listed) roomOf
  refine ⟨inv.setHeap listed record rooms heap next rfl, fun {i a} found => ?_,
    fun {i a} found => ?_, members.1, members.2⟩
  · rw [records, Function.update_apply] at found
    split_ifs at found
    · cases found
      exact Nat.succ_pos _
    · exact inv.count_pos found
  · rw [records, Function.update_apply] at found
    split_ifs at found
    · cases found
      have filledCard := card_occupied_fill connection free
      have counted := inv.count_eq old
      simp only
      omega
    · exact inv.count_eq found

/-- Installing a fresh room whose only member is a connection in no room keeps the invariant. -/
theorem Inv.install (inv : Inv s) (free : s.rooms index = none)
    (absent : s.roomOf connection = none) {r' : Room}
    (newName : ∀ j a, recordAt s j = some a → a.name ≠ r'.name)
    (members' : r'.members = Function.update (fun _ => none) slot (some connection))
    (count : r'.memberCount = 1)
    (rooms : s'.rooms = Function.update s.rooms index (some s.nextRoom))
    (heap : s'.heap = Function.update s.heap s.nextRoom (some r'))
    (next : s'.nextRoom = s.nextRoom + 1)
    (roomOf : s'.roomOf = Function.update s.roomOf connection (some s.nextRoom)) :
    Inv s' := by
  have records := recordAt_install inv.toLayout free rooms heap
  have empty : ∀ k, memberAt s index k = none := by
    simp [memberAt, recordAt, free]
  have filled : ∀ i k, memberAt s' i k =
      if i = index ∧ k = slot then some connection else memberAt s i k := by
    intro i k
    rw [memberAt_of_records records]
    by_cases same : i = index
    · subst same
      by_cases here : k = slot
      · simp [here, members']
      · simp [here, members', empty]
    · simp [same]
  have roomsKept : ∀ i k c, memberAt s i k = some c → s'.rooms i = s.rooms i := by
    intro i k c found
    have different : i ≠ index := by
      rintro rfl
      rw [empty] at found
      cases found
    rw [rooms, Function.update_noteq different]
  have members := members_of_join inv absent (positions_of_fill (empty slot) filled)
    roomsKept (by simp [rooms]) roomOf
  refine ⟨inv.toLayout.install free newName rooms heap next, fun {i a} found => ?_,
    fun {i a} found => ?_, members.1, members.2⟩
  · rw [records, Function.update_apply] at found
    split_ifs at found
    · cases found
      rw [count]
      exact Nat.one_pos
    · exact inv.count_pos found
  · rw [records, Function.update_apply] at found
    split_ifs at found
    · cases found
      rw [count, members', card_occupied_fill connection rfl]
      simp [occupied]
    · exact inv.count_eq found

end Join

/-! ## Whole commands -/

theorem nameAt_eq (s : Registry) (index : Fin maxRooms) :
    s.nameAt index = (recordAt s index).map Room.name := by
  cases s.rooms index <;> simp [Registry.nameAt, recordAt, *]

/-- The insertion loop fills the slot the scan finds. -/
theorem insertMember_eq {r : Room} {connection : ConnPtr} {slot : Fin roomCapacity}
    (first : firstFree r.members = some slot) :
    r.insertMember connection =
      { r with
        members := Function.update r.members slot (some connection)
        memberCount := r.memberCount + 1 } := by
  simp [Room.insertMember, first]

/-- The first member of a new room takes member slot 0. -/
theorem firstFree_newRoom (name : List Char) :
    firstFree (newRoom name).members = some ⟨0, by decide⟩ :=
  firstFree_eq_some.mpr ⟨rfl, fun other _ => Nat.zero_le other.val⟩

/-- Leaving the current room, as `/join` and teardown start, keeps the invariant. -/
theorem Inv.leaveCurrent {s : Registry} (inv : Inv s) (connection : ConnPtr) :
    Inv (leaveCurrent connection s) ∧ (leaveCurrent connection s).roomOf connection = none := by
  cases current : s.roomOf connection with
  | none => rw [leaveCurrent_of_none current]; exact ⟨inv, current⟩
  | some room => rw [leaveCurrent_of_room current]; exact inv.roomRemoveMember current

/-- A valid `/join` keeps the invariant. -/
theorem Inv.joinValid {s : Registry} (inv : Inv s) (connection : ConnPtr)
    {name : List Char} (valid : isValidRoomname name = true) :
    Inv (joinValid connection name s).1 := by
  obtain ⟨inv₁, absent⟩ := inv.leaveCurrent connection
  cases found : roomFind name (Rooms.leaveCurrent connection s) with
  | some room =>
      obtain ⟨index, listed, -⟩ := roomFind_eq_some found
      obtain ⟨r, record⟩ := Option.isSome_iff_exists.mp (inv₁.allocated listed)
      have created := roomCreate_of_found found
      by_cases below : r.memberCount < roomCapacity
      · rw [joinValid_of_below created record below]
        have fewer : (occupied r.members).card < roomCapacity := by
          rw [← inv₁.count_eq (recordAt_of_listed listed record)]
          exact below
        obtain ⟨slot, first⟩ :=
          Option.isSome_iff_exists.mp (firstFree_isSome_of_card_lt fewer)
        rw [roomAddMember_of_below record below, insertMember_eq first]
        exact inv₁.insert listed record (firstFree_eq_some.mp first).1 absent rfl rfl rfl rfl
      · rw [joinValid_of_full created record (Nat.not_lt.mp below)]
        exact inv₁
  | none =>
      cases slotFound : firstFree (Rooms.leaveCurrent connection s).rooms with
      | none =>
          rw [joinValid_of_noSlot (roomCreate_of_full found slotFound)]
          exact inv₁
      | some index =>
          have short : name.take (roomNameLen - 1) = name := by
            have := (isValidName_iff.mp valid).2.1
            exact List.take_of_length_le (by unfold roomNameLen at this ⊢; omega)
          have empty : (newRoom name).memberCount < roomCapacity := by
            simp [newRoom, roomCapacity]
          rw [joinValid_of_below (roomCreate_of_missing found slotFound)
              (Function.update_same _ _ _) empty,
            roomAddMember_of_below (Function.update_same _ _ _) empty,
            insertMember_eq (firstFree_newRoom name)]
          refine inv₁.install (firstFree_eq_some.mp slotFound).1 absent ?_ rfl rfl rfl
            (Function.update_idem _ _ _) rfl rfl
          intro j a records named
          apply roomFind_eq_none found j
          rw [nameAt_eq, records, Option.map_some', named]
          simp only [newRoom, short]

/-- `/join`, `/leave` and teardown keep the invariant. -/
theorem Inv.run {s : Registry} (inv : Inv s) (connection : ConnPtr) (command : RoomCommand) :
    Inv (command.run connection s).1 := by
  cases command with
  | join roomName extra =>
      simp only [RoomCommand.run]
      by_cases accepted : ∃ name, roomName = some name ∧ extra = none ∧
          isValidRoomname name = true
      · obtain ⟨name, rfl, rfl, valid⟩ := accepted
        rw [handleJoin_of_valid valid]
        exact inv.joinValid connection valid
      · rw [handleJoin_of_rejected fun name named none' => by
          simpa [named, none'] using accepted]
        exact inv
  | leave =>
      simp only [RoomCommand.run]
      cases current : s.roomOf connection with
      | none => rw [handleLeave_of_none current]; exact inv
      | some room =>
          obtain ⟨index, r, slot, listed, record, member⟩ := inv.current current
          rw [handleLeave_of_room current record]
          exact (inv.roomRemoveMember current).1
  | teardown => exact (inv.leaveCurrent connection).1

/-- Every registry state reached by whole room commands satisfies the invariant. -/
theorem inv_of_reachable {s : Registry} (reachable : Reachable s) : Inv s := by
  induction reachable with
  | initial => exact inv_initial
  | step connection command _ invariant => exact invariant.run connection command

/-! ## The registry as its comments describe it -/

/--
The properties the registry comments promise, read directly on `rooms[]`, the
heap and `connection->room`.
-/
structure Sound (s : Registry) : Prop where
  /-- Two slots of `rooms[]` hold rooms of different names. -/
  names_distinct : ∀ i j p q rp rq, i ≠ j → s.rooms i = some p → s.rooms j = some q →
    s.heap p = some rp → s.heap q = some rq → rp.name ≠ rq.name
  /-- A listed room is allocated, has 1 to `ROOM_CAPACITY` members, and counts them. -/
  counted : ∀ i p, s.rooms i = some p → ∃ r, s.heap p = some r ∧
    1 ≤ r.memberCount ∧ r.memberCount ≤ roomCapacity ∧
    r.memberCount = (occupied r.members).card
  /-- A connection occupies at most one member slot of at most one listed room. -/
  member_once : ∀ c i j p q rp rq k l, s.rooms i = some p → s.rooms j = some q →
    s.heap p = some rp → s.heap q = some rq →
    rp.members k = some c → rq.members l = some c → i = j ∧ k = l
  /-- `connection->room` is NULL exactly when no listed room holds the connection. -/
  roomOf_none : ∀ c, s.roomOf c = none ↔
    ∀ i p r k, s.rooms i = some p → s.heap p = some r → r.members k ≠ some c
  /-- Otherwise `connection->room` is a listed room that holds the connection. -/
  roomOf_some : ∀ c p, s.roomOf c = some p →
    ∃ i r k, s.rooms i = some p ∧ s.heap p = some r ∧ r.members k = some c

theorem Inv.sound {s : Registry} (inv : Inv s) : Sound s := by
  have memberAt_of {i p r k c} (listed : s.rooms i = some p) (record : s.heap p = some r)
      (member : r.members k = some c) : memberAt s i k = some c := by
    simp [memberAt, recordAt_of_listed listed record, member]
  refine ⟨fun i j p q rp rq distinct listedI listedJ recordP recordQ same => ?_,
    fun i p listed => ?_, fun c i j p q rp rq k l listedI listedJ recordP recordQ
      memberK memberL => ?_, fun c => ⟨fun unset i p r k listed record member => ?_,
      fun nowhere => ?_⟩, fun c p current => inv.current current⟩
  · exact distinct (inv.name_unique (recordAt_of_listed listedI recordP)
      (recordAt_of_listed listedJ recordQ) same)
  · obtain ⟨r, record⟩ := Option.isSome_iff_exists.mp (inv.allocated listed)
    have records := recordAt_of_listed listed record
    exact ⟨r, record, inv.count_pos records, inv.count_le records, inv.count_eq records⟩
  · exact inv.member_unique (memberAt_of listedI recordP memberK)
      (memberAt_of listedJ recordQ memberL)
  · have current := inv.roomOf_iff.mpr ⟨i, k, listed, memberAt_of listed record member⟩
    rw [unset] at current
    cases current
  · cases current : s.roomOf c with
    | none => rfl
    | some p =>
        obtain ⟨i, r, k, listed, record, member⟩ := inv.current current
        exact absurd member (nowhere i p r k listed record)

/-- Every registry state reached by whole `/join`, `/leave` and teardown commands is sound. -/
theorem registry_sound_of_reachable {s : Registry} (reachable : Reachable s) : Sound s :=
  (inv_of_reachable reachable).sound

theorem registry_sound_after_join :
    Reachable ((RoomCommand.join (some ['r']) none).run 0 Registry.initial).1 ∧
      Sound ((RoomCommand.join (some ['r']) none).run 0 Registry.initial).1 :=
  ⟨.step 0 _ .initial, registry_sound_of_reachable (.step 0 _ .initial)⟩

end ChatServer.RoomInvariant
