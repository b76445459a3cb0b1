import ChatServer.NotifyStream
import ChatServer.CommandParsing
import ChatServer.Rooms

/-!
# `room_broadcast`

`room_broadcast(room, from, msg)` takes the room's mutex and, for each
non-NULL member slot in order, formats `"[%s] %s\n"` into a local
`buf[BUF_SIZE]` with `snprintf` and writes `len` bytes of it, `len` being
what `snprintf` returned, into the member's `notify_writer`.
`broadcast_message_via_notify` writes a whisper the same way.

Two facts about it are proved here.  The count passed to `write` is the
length of the whole frame, not the part `snprintf` stored: a `/broadcast` line
that fits the handler's `recv` can carry a message whose frame is longer than
`BUF_SIZE - 1` bytes, and the `write` then reads past the buffer.  And the
room's mutex orders broadcasts: `room_add_member` and `room_remove_member`
take it too, the other writers of the members' channels take no lock of the
room, and along every interleaving the broadcast frames reach every member
in the order in which their broadcasts took the mutex, so two members never
see two broadcasts in opposite orders.
-/

namespace ChatServer.RoomBroadcast

open ChatServer.Basic ChatServer.NotifyStream ChatServer.CommandParsing ChatServer.Rooms

/-! ## The length passed to `write` -/

/--
`write(fd, buf, len)` from a buffer whose first characters `stored` were put
there by `snprintf`: the bytes written, or `none` when `len` runs past them.
-/
def writeStored (stored : List Char) (len : Nat) : Option (List Char) :=
  if len ≤ stored.length then some (stored.take len) else none

/-- The `snprintf` and `write` of a frame in `room_broadcast` and `broadcast_message_via_notify`. -/
def frameWrite (sender message : List Char) : Option (List Char) :=
  let formatted := snprintf bufSize (textFrame sender message)
  writeStored formatted.1 formatted.2

theorem length_textFrame (sender message : List Char) :
    (textFrame sender message).length = sender.length + message.length + 4 := by
  simp only [textFrame, List.length_append, List.length_cons, show "] ".toList.length = 2 from rfl,
    List.length_singleton, List.length_nil]
  omega

/-- A frame shorter than `BUF_SIZE` is written whole. -/
theorem frameWrite_of_fits {sender message : List Char}
    (fits : (textFrame sender message).length < bufSize) :
    frameWrite sender message = some (textFrame sender message) := by
  rw [frameWrite, snprintf, writeStored, List.take_of_length_le (by omega), if_pos le_rfl,
    List.take_length]

/-- A frame of `BUF_SIZE` bytes or more makes `write` read past what `snprintf` stored. -/
theorem frameWrite_of_long {sender message : List Char}
    (long : bufSize ≤ (textFrame sender message).length) : frameWrite sender message = none := by
  rw [frameWrite, snprintf, writeStored, if_neg]
  rw [List.length_take]
  unfold bufSize at long ⊢
  omega

/-- A `/broadcast` message of 4083 bytes: its line has `BUF_SIZE - 1` bytes. -/
def longestMessage : List Char :=
  List.replicate 4083 'x'

/--
A line of `BUF_SIZE - 1` bytes, which one `recv` of the handler takes whole,
dispatches as `/broadcast` with a 4083-byte message; for a sender of 9
characters or more the frame is longer than the `BUF_SIZE - 1` characters
`snprintf` stores, and `write` is passed the longer count.
-/
theorem frame_write_overruns (sender : List Char) (long : 9 ≤ sender.length) :
    (ClientCommand.broadcast longestMessage).WellFormed ∧
      (ClientCommand.broadcast longestMessage).line.length = bufSize - 1 ∧
      dispatch (ClientCommand.broadcast longestMessage).line =
        .broadcast (some longestMessage) ∧
      (snprintf bufSize (textFrame sender longestMessage)).1.length <
        (snprintf bufSize (textFrame sender longestMessage)).2 ∧
      frameWrite sender longestMessage = none := by
  have message : longestMessage.length = 4083 := List.length_replicate _ _
  have line : (ClientCommand.broadcast longestMessage).line.length = bufSize - 1 := by
    rw [ClientCommand.line, List.length_append, List.length_cons, List.length_append, message]
    rfl
  have text : Text longestMessage :=
    ⟨by rw [longestMessage, ne_eq, List.replicate_eq_nil_iff]; decide,
      fun c member => by rw [List.eq_of_mem_replicate member]; decide⟩
  have wellFormed : (ClientCommand.broadcast longestMessage).WellFormed :=
    ⟨by rw [line]; decide, text⟩
  have frame := length_textFrame sender longestMessage
  refine ⟨wellFormed, line, dispatch_line _ wellFormed, ?_,
    frameWrite_of_long (by rw [frame, message]; unfold bufSize; omega)⟩
  rw [snprintf, List.length_take, frame, message]
  unfold bufSize
  omega

theorem frame_write_overruns_for_15_characters :
    9 ≤ (List.replicate 15 'a').length ∧
      ((ClientCommand.broadcast longestMessage).WellFormed ∧
        (ClientCommand.broadcast longestMessage).line.length = bufSize - 1 ∧
        dispatch (ClientCommand.broadcast longestMessage).line =
          .broadcast (some longestMessage) ∧
        (snprintf bufSize (textFrame (List.replicate 15 'a') longestMessage)).1.length <
          (snprintf bufSize (textFrame (List.replicate 15 'a') longestMessage)).2 ∧
        frameWrite (List.replicate 15 'a') longestMessage = none) :=
  ⟨by rw [List.length_replicate]; decide,
    frame_write_overruns _ (by rw [List.length_replicate]; decide)⟩

/-! ## Broadcasts of one room, interleaved -/

/--
Bytes that one step of a `write` call puts into a member's notify channel.
A blocking `write` on the socketpair may hand its bytes over in several
pieces, and another writer's bytes may come between them.
-/
inductive Piece where
  /-- Bytes of the frame of the room's broadcast number `serial`. -/
  | frame (serial : Nat) (bytes : List Char)
  /-- Bytes of a writer that takes no lock of the room: a whisper, a file, another room. -/
  | other (bytes : List Char)
  deriving DecidableEq, Repr

/-- The broadcast a piece belongs to, if any. -/
def Piece.serial? : Piece → Option Nat
  | .frame serial _ => some serial
  | .other _ => none

/-- The broadcasts of the room whose bytes a channel holds, in the order of the bytes. -/
def serials (channel : List Piece) : List Nat :=
  channel.filterMap Piece.serial?

/-- Where a thread stands in `room_broadcast`. -/
inductive BroadcastPc where
  | idle
  /-- Holding the room's mutex, at member slot `slot` of the loop. -/
  | scanning (serial : Nat) (frame : List Char) (slot : Nat)
  /-- In the `write` of `frame` to the member of slot `slot`, `rest` not yet handed over. -/
  | writing (serial : Nat) (frame : List Char) (slot : Nat) (member : ConnPtr)
      (rest : List Char)
  deriving DecidableEq, Repr

/-- The number of the broadcast a thread is in. -/
def BroadcastPc.serial? : BroadcastPc → Option Nat
  | .idle => none
  | .scanning serial _ _ => some serial
  | .writing serial _ _ _ _ => some serial

/--
One room, the holder of its mutex, the threads in `room_broadcast`, and the
members' notify channels.  `started` counts the broadcasts that have taken
the mutex: it numbers the broadcasts and is not a variable of the source.
-/
structure BroadcastState where
  room : Room
  holder : Option Nat
  started : Nat
  broadcasters : Nat → BroadcastPc
  channels : ConnPtr → List Piece

/-- No thread in `room_broadcast`, the mutex free, the channels empty. -/
def BroadcastState.initial (room : Room) : BroadcastState :=
  ⟨room, none, 0, fun _ => .idle, fun _ => []⟩

/--
The next member the loop `for (i = slot; i < ROOM_CAPACITY; ++i)` writes to:
the first slot from `slot` on that holds a member.  The passes over NULL
slots in between only read the slots, under the mutex.
-/
def nextMember (members : Fin roomCapacity → Option ConnPtr) (slot : Nat) :
    Option (Nat × ConnPtr) :=
  ((List.finRange roomCapacity).filterMap fun i =>
    if slot ≤ i.val then (members i).map fun member => (i.val, member) else none).head?

def BroadcastState.setPc (s : BroadcastState) (thread : Nat) (pc : BroadcastPc) :
    BroadcastState :=
  { s with broadcasters := Function.update s.broadcasters thread pc }

def BroadcastState.append (s : BroadcastState) (member : ConnPtr) (piece : Piece) :
    BroadcastState :=
  { s with channels := Function.update s.channels member (s.channels member ++ [piece]) }

/-- One step of a schedule. -/
inductive Event where
  /-- `room_broadcast` of `frame` by `thread` takes the room's mutex. -/
  | call (thread : Nat) (frame : List Char)
  /-- The loop moves on to the next member, or unlocks the mutex after the last slot. -/
  | scan (thread : Nat)
  /-- The `write` to the current member hands `count` more bytes to its channel. -/
  | write (thread : Nat) (count : Nat)
  /-- The `write` returns with the rest of the frame unsent; the loop goes on. -/
  | fail (thread : Nat)
  /-- The section of `room_add_member` under the room's mutex. -/
  | join (member : ConnPtr)
  /-- The section of `room_remove_member` under the room's mutex. -/
  | leave (member : ConnPtr)
  /-- A writer that takes no lock of the room writes to a member's channel. -/
  | other (member : ConnPtr) (bytes : List Char)

/-- The effect of one step, `none` when it cannot be taken. -/
def BroadcastState.apply (s : BroadcastState) : Event → Option BroadcastState
  | .call thread frame =>
      if s.holder = none ∧ s.broadcasters thread = .idle then
        some { s.setPc thread (.scanning s.started frame 0) with
          holder := some thread, started := s.started + 1 }
      else none
  | .scan thread =>
      match s.broadcasters thread with
      | .scanning serial frame slot =>
          match nextMember s.room.members slot with
          | some (found, member) => some (s.setPc thread (.writing serial frame found member frame))
          | none => some { s.setPc thread .idle with holder := none }
      | _ => none
  | .write thread count =>
      match s.broadcasters thread with
      | .writing serial frame slot member rest =>
          if 0 < count ∧ count ≤ rest.length then
            some ((s.append member (.frame serial (rest.take count))).setPc thread
              (if count < rest.length then .writing serial frame slot member (rest.drop count)
                else .scanning serial frame (slot + 1)))
          else none
      | _ => none
  | .fail thread =>
      match s.broadcasters thread with
      | .writing serial frame slot _ _ => some (s.setPc thread (.scanning serial frame (slot + 1)))
      | _ => none
  | .join member =>
      if s.holder = none then
        some { s with
          room := if roomCapacity ≤ s.room.memberCount then s.room
            else s.room.insertMember member }
      else none
  | .leave member =>
      if s.holder = none then some { s with room := s.room.eraseMember member } else none
  | .other member bytes => some (s.append member (.other bytes))

/-- The schedule `events` takes `s` to `s'`. -/
inductive Run (s : BroadcastState) : List Event → BroadcastState → Prop
  | nil : Run s [] s
  | snoc {events : List Event} {s' s'' : BroadcastState} {event : Event} :
      Run s events s' → s'.apply event = some s'' → Run s (events ++ [event]) s''

/-! ## The order of the frames -/

section Fields

variable {s : BroadcastState} {thread : Nat} {pc : BroadcastPc} {member : ConnPtr} {piece : Piece}

@[simp]
theorem setPc_channels : (s.setPc thread pc).channels = s.channels := rfl

@[simp]
theorem setPc_holder : (s.setPc thread pc).holder = s.holder := rfl

@[simp]
theorem setPc_started : (s.setPc thread pc).started = s.started := rfl

@[simp]
theorem setPc_broadcasters :
    (s.setPc thread pc).broadcasters = Function.update s.broadcasters thread pc := rfl

@[simp]
theorem append_holder : (s.append member piece).holder = s.holder := rfl

@[simp]
theorem append_started : (s.append member piece).started = s.started := rfl

@[simp]
theorem append_broadcasters :
    (s.append member piece).broadcasters = s.broadcasters := rfl

@[simp]
theorem append_channels :
    (s.append member piece).channels =
      Function.update s.channels member (s.channels member ++ [piece]) := rfl

end Fields

theorem serials_append (channel : List Piece) (piece : Piece) :
    serials (channel ++ [piece]) = serials channel ++ piece.serial?.toList := by
  cases piece <;> simp [serials, Piece.serial?]

/--
What every reachable state satisfies: each channel holds the room's frames
in the order of their broadcasts' numbers, all below `started`, and a thread
inside `room_broadcast` holds the mutex and runs the latest broadcast.
-/
structure Ordered (s : BroadcastState) : Prop where
  sorted : ∀ member, (serials (s.channels member)).Pairwise (· ≤ ·)
  below : ∀ member, ∀ serial ∈ serials (s.channels member), serial < s.started
  holding : ∀ thread serial, (s.broadcasters thread).serial? = some serial →
    s.holder = some thread ∧ serial + 1 = s.started

section Preservation

variable {s : BroadcastState}

theorem ordered_initial (room : Room) : Ordered (BroadcastState.initial room) :=
  ⟨fun _ => List.Pairwise.nil, fun _ _ absent => (nomatch absent),
    fun _ _ idle => (nomatch idle)⟩

/-- A piece of the latest broadcast, or of another writer, keeps every channel in order. -/
theorem Ordered.append (ordered : Ordered s) (member : ConnPtr) {piece : Piece}
    (latest : ∀ serial, piece.serial? = some serial → serial + 1 = s.started) :
    Ordered (s.append member piece) := by
  have tail : ∀ old ∈ serials (s.channels member), ∀ serial ∈ piece.serial?.toList,
      old ≤ serial := fun old present serial new => by
    have := latest serial (Option.mem_toList.mp new)
    have := ordered.below member old present
    omega
  refine ⟨fun other => ?_, fun other serial present => ?_, ordered.holding⟩
  · simp only [append_channels, Function.update_apply]
    split
    · subst other
      rw [serials_append]
      exact List.pairwise_append.mpr ⟨ordered.sorted member,
        by cases piece.serial? <;> simp, tail⟩
    · exact ordered.sorted other
  · simp only [append_channels, Function.update_apply] at present
    split at present
    · subst other
      rw [serials_append, List.mem_append] at present
      rcases present with old | new
      · exact ordered.below member serial old
      · have := latest serial (Option.mem_toList.mp new)
        rw [append_started]
        omega
    · exact ordered.below other serial present

/-- A thread moving within its broadcast, holding the mutex, keeps the order. -/
theorem Ordered.setPc (ordered : Ordered s) (thread : Nat) {pc : BroadcastPc}
    (holds : ∀ serial, pc.serial? = some serial → s.holder = some thread ∧ serial + 1 = s.started) :
    Ordered (s.setPc thread pc) := by
  refine ⟨ordered.sorted, ordered.below, fun other serial running => ?_⟩
  rw [setPc_broadcasters, Function.update_apply] at running
  split at running
  · subst other
    exact holds serial running
  · exact ordered.holding other serial running

/-- One step keeps every channel in the order of the broadcasts. -/
theorem Ordered.apply (ordered : Ordered s) {event : Event} {s' : BroadcastState}
    (applied : s.apply event = some s') : Ordered s' := by
  cases event with
  | call thread frame =>
      simp only [BroadcastState.apply] at applied
      split at applied
      case isFalse => cases applied
      case isTrue free =>
        cases applied
        refine ⟨ordered.sorted, fun member serial present =>
          Nat.lt_succ_of_lt (ordered.below member serial present), fun other serial running => ?_⟩
        simp only [setPc_broadcasters, Function.update_apply] at running
        split at running
        · subst other
          cases running
          exact ⟨rfl, rfl⟩
        · obtain ⟨held, -⟩ := ordered.holding other serial running
          exact absurd (free.1.symm.trans held) (by simp)
  | scan thread =>
      simp only [BroadcastState.apply] at applied
      split at applied
      case h_1 serial frame slot scanning =>
        have holds := ordered.holding thread serial (by rw [scanning]; rfl)
        split at applied
        · cases applied
          exact ordered.setPc thread fun _ same => by cases same; exact holds
        · cases applied
          refine ⟨ordered.sorted, ordered.below, fun other serial' running => ?_⟩
          simp only [setPc_broadcasters, Function.update_apply] at running
          split at running
          · cases running
          · have held := (ordered.holding other serial' running).1
            rw [holds.1] at held
            exact absurd (Option.some.inj held).symm ‹¬other = thread›
      case h_2 => cases applied
  | write thread count =>
      simp only [BroadcastState.apply] at applied
      split at applied
      case h_1 serial frame slot member rest writing =>
        have holds := ordered.holding thread serial (by rw [writing]; rfl)
        split at applied
        case isFalse => cases applied
        case isTrue =>
          cases applied
          refine (ordered.append member fun _ same => ?_).setPc thread fun _ same' => ?_
          · cases same
            exact holds.2
          · split at same' <;> (cases same'; exact holds)
      case h_2 => cases applied
  | fail thread =>
      simp only [BroadcastState.apply] at applied
      split at applied
      case h_1 serial frame slot member rest writing =>
        have holds := ordered.holding thread serial (by rw [writing]; rfl)
        cases applied
        exact ordered.setPc thread fun _ same => by cases same; exact holds
      case h_2 => cases applied
  | join member =>
      simp only [BroadcastState.apply] at applied
      split at applied
      · cases applied
        exact ⟨ordered.sorted, ordered.below, ordered.holding⟩
      · cases applied
  | leave member =>
      simp only [BroadcastState.apply] at applied
      split at applied
      · cases applied
        exact ⟨ordered.sorted, ordered.below, ordered.holding⟩
      · cases applied
  | other member bytes =>
      cases applied
      exact ordered.append member fun _ none => nomatch none

end Preservation

theorem Ordered.run {room : Room} {events : List Event} {s : BroadcastState}
    (run : Run (BroadcastState.initial room) events s) : Ordered s := by
  induction run with
  | nil => exact ordered_initial room
  | snoc _ applied ordered => exact ordered.apply applied

/--
Along every interleaving of broadcasts on one room with joins, leaves and
other writers, two members never receive two broadcast frames in opposite
orders: if a byte of broadcast `a` precedes a byte of broadcast `b` in one
member's channel, no byte of `b` precedes a byte of `a` in another's.
-/
theorem members_agree_on_broadcast_order {room : Room} {events : List Event}
    {s : BroadcastState} (run : Run (BroadcastState.initial room) events s)
    {first second : ConnPtr} {a b : Nat} (distinct : a ≠ b)
    (before : List.Sublist [a, b] (serials (s.channels first))) :
    ¬ List.Sublist [b, a] (serials (s.channels second)) := by
  have ordered := Ordered.run run
  intro after
  have forward := List.rel_of_pairwise_cons ((ordered.sorted first).sublist before)
    (List.mem_singleton_self b)
  have backward := List.rel_of_pairwise_cons ((ordered.sorted second).sublist after)
    (List.mem_singleton_self a)
  exact distinct (Nat.le_antisymm forward backward)

/-- A room `r` with member `0` in slot 0 and member `1` in slot 1. -/
def twoMemberRoom : Room :=
  ⟨['r'], fun slot => if slot.val < 2 then some slot.val else none, 2⟩

/-- Thread 0 broadcasts `a`, then thread 1 broadcasts `b`, each frame in one piece per member. -/
def twoBroadcasts : List Event :=
  [.call 0 ['a'], .scan 0, .write 0 1, .scan 0, .write 0 1, .scan 0,
    .call 1 ['b'], .scan 1, .write 1 1, .scan 1, .write 1 1, .scan 1]

theorem members_agree_on_two_broadcasts :
    ∃ s, Run (BroadcastState.initial twoMemberRoom) twoBroadcasts s ∧ (0 : Nat) ≠ 1 ∧
      List.Sublist [0, 1] (serials (s.channels 0)) ∧
      ¬ List.Sublist [1, 0] (serials (s.channels 1)) := by
  have run := (Run.nil : Run (BroadcastState.initial twoMemberRoom) [] _).snoc
    (show BroadcastState.apply _ (.call 0 ['a']) = some _ from rfl)
  replace run := run.snoc (show BroadcastState.apply _ (.scan 0) = some _ from rfl)
  replace run := run.snoc (show BroadcastState.apply _ (.write 0 1) = some _ from rfl)
  replace run := run.snoc (show BroadcastState.apply _ (.scan 0) = some _ from rfl)
  replace run := run.snoc (show BroadcastState.apply _ (.write 0 1) = some _ from rfl)
  replace run := run.snoc (show BroadcastState.apply _ (.scan 0) = some _ from rfl)
  replace run := run.snoc (show BroadcastState.apply _ (.call 1 ['b']) = some _ from rfl)
  replace run := run.snoc (show BroadcastState.apply _ (.scan 1) = some _ from rfl)
  replace run := run.snoc (show BroadcastState.apply _ (.write 1 1) = some _ from rfl)
  replace run := run.snoc (show BroadcastState.apply _ (.scan 1) = some _ from rfl)
  replace run := run.snoc (show BroadcastState.apply _ (.write 1 1) = some _ from rfl)
  replace run := run.snoc (show BroadcastState.apply _ (.scan 1) = some _ from rfl)
  refine ⟨_, run, by decide, ?before, members_agree_on_broadcast_order run (by decide) ?before⟩
  case before => decide

end ChatServer.RoomBroadcast
