import ChatServer.CommandParsing

/-!
# Writers blocked on a full notify channel

A session's notify channel is a socketpair: other threads `write` into its
writing end and only the session's own `client_handler` reads it, in its
`select` loop, after handling any command its client sent.  A `write` into
a full channel blocks until the reader makes room.  Two writers hold a lock
while they write: `broadcast_message_via_notify` holds `conn_mutex`, and
`room_broadcast` holds the room's mutex.  `find_connection`, and the lookup
of each upload's recipient by `file_upload_worker`, take `conn_mutex` around
a search that never blocks.  The upload queue blocks its producers while
full and its consumers while empty.

This module models these threads over a channel capacity, with the two
mutexes, the queue of uploads and the bytes waiting in every channel; a
step is a client's command reaching its idle handler, a handler's read of
its channel, or one step of a thread.  A thread is blocked on another when
it waits for a mutex the other holds, or for room in a channel that only the
other drains.  A non-empty group of threads each blocked on one of the group
never moves again, whatever the other threads do; and such a group is
reached when a whisper's `write` under `conn_mutex` meets a full channel
whose reader is itself about to take `conn_mutex`.

Shutdown, which closes the channels, is the subject of
`ChatServer.Shutdown`, and the membership of the room is fixed here.
-/

namespace ChatServer.Deadlock

open ChatServer.Basic ChatServer.CommandParsing

/-- A thread of the server: a session's `client_handler`, or an upload worker. -/
inductive Thread where
  | handler (session : Nat)
  | worker (index : Nat)
  deriving DecidableEq, Repr

/-- Where a session's `client_handler` stands. -/
inductive HandlerPc where
  /-- In its `select` loop. -/
  | idle
  /-- `/whisper`: in `find_connection(target)`, about to take `conn_mutex`. -/
  | finding (target frame : Nat)
  /-- `/whisper`: in `broadcast_message_via_notify`, about to take `conn_mutex`. -/
  | notifying (target frame : Nat)
  /-- Holding `conn_mutex`, in `write` of the last `rest` bytes of a frame to `target`. -/
  | whispering (target rest : Nat)
  /-- `/broadcast`: in `room_broadcast`, about to take the room's mutex. -/
  | broadcasting (frame : Nat)
  /-- Holding the room's mutex, in `write` of the last `rest` bytes of the frame to the
  member in `slot`. -/
  | roomWriting (slot frame rest : Nat)
  /-- `/sendfile`: in `file_queue_enqueue` of an upload of `bytes` bytes for `target`. -/
  | enqueuing (target bytes : Nat)
  deriving DecidableEq, Repr

/-- Where an upload worker stands. -/
inductive WorkerPc where
  /-- In `file_queue_dequeue`. -/
  | waiting
  /-- Holding an upload of `bytes` bytes, header and payload, for `target`. -/
  | looking (target bytes : Nat)
  /-- In `write` of the last `rest` bytes of the upload to `target`, holding no lock. -/
  | sending (target rest : Nat)
  deriving DecidableEq, Repr

/-- What a run does not change: channel capacity, live sessions, and the room's members. -/
structure Config where
  /-- The bytes a notify channel holds before `write` blocks. -/
  capacity : Nat
  /-- The sessions `find_connection_locked` finds. -/
  online : List Nat
  /-- The sessions in the room's `members[]`, in slot order. -/
  members : List Nat

/-- Every thread, the holders of the two mutexes, the queue and every channel. -/
structure State where
  handlers : Nat → HandlerPc
  workers : Nat → WorkerPc
  /-- The holder of `conn_mutex`. -/
  conn : Option Thread
  /-- The holder of the room's mutex. -/
  roomLock : Option Thread
  /-- The queued uploads, as recipient and bytes. -/
  queue : List (Nat × Nat)
  /-- The bytes waiting in each session's notify channel. -/
  fill : Nat → Nat

/-- Every thread idle, no lock held, the queue and every channel empty. -/
def State.initial : State :=
  ⟨fun _ => .idle, fun _ => .waiting, none, none, [], fun _ => 0⟩

/-- Handler `i` moves to `pc`. -/
def State.setHandler (s : State) (i : Nat) (pc : HandlerPc) : State :=
  { s with handlers := Function.update s.handlers i pc }

/-- Worker `w` moves to `pc`. -/
def State.setWorker (s : State) (w : Nat) (pc : WorkerPc) : State :=
  { s with workers := Function.update s.workers w pc }

/-- `write` puts `count` bytes into `session`'s channel. -/
def State.put (s : State) (session count : Nat) : State :=
  { s with fill := Function.update s.fill session (s.fill session + count) }

/-- `read` takes `count` bytes out of `session`'s channel. -/
def State.take (s : State) (session count : Nat) : State :=
  { s with fill := Function.update s.fill session (s.fill session - count) }

section Steps

variable (config : Config)

/-- A client's command reaches its handler, which must be idle in `select`. -/
def State.command (s : State) (i : Nat) (pc : HandlerPc) : Option State :=
  if s.handlers i = .idle then some (s.setHandler i pc) else none

/--
A step of handler `i` that moves no bytes; `none` while it waits for a
mutex or for room in the queue, and in a `write`.
-/
def State.handlerStep (s : State) (i : Nat) : Option State :=
  match s.handlers i with
  | .finding target frame =>
      if s.conn = none then
        some (s.setHandler i (if target ∈ config.online then .notifying target frame else .idle))
      else none
  | .notifying target frame =>
      if s.conn = none then
        if target ∈ config.online then
          some { s.setHandler i (.whispering target frame) with conn := some (.handler i) }
        else some (s.setHandler i .idle)
      else none
  | .broadcasting frame =>
      if s.roomLock = none then
        if config.members = [] then some (s.setHandler i .idle)
        else some { s.setHandler i (.roomWriting 0 frame frame) with roomLock := some (.handler i) }
      else none
  | .enqueuing target bytes =>
      if s.queue.length < roomCapacity then
        some { s.setHandler i .idle with queue := s.queue ++ [(target, bytes)] }
      else none
  | _ => none

/--
A `write` call of handler `i` that puts `count` bytes into a channel with
room for them.  The last bytes of a whisper release `conn_mutex`; those of
the last member release the room's mutex.
-/
def State.handlerWrite (s : State) (i count : Nat) : Option State :=
  match s.handlers i with
  | .whispering target rest =>
      if 0 < count ∧ count ≤ rest ∧ s.fill target + count ≤ config.capacity then
        some (if count < rest then
            (s.put target count).setHandler i (.whispering target (rest - count))
          else { (s.put target count).setHandler i .idle with conn := none })
      else none
  | .roomWriting slot frame rest =>
      match config.members[slot]? with
      | some member =>
          if 0 < count ∧ count ≤ rest ∧ s.fill member + count ≤ config.capacity then
            some (if count < rest then
                (s.put member count).setHandler i (.roomWriting slot frame (rest - count))
              else if slot + 1 < config.members.length then
                (s.put member count).setHandler i (.roomWriting (slot + 1) frame frame)
              else { (s.put member count).setHandler i .idle with roomLock := none })
          else none
      | none => none
  | _ => none

/-- A step of worker `w` that moves no bytes: the dequeue, or the lookup under `conn_mutex`. -/
def State.workerStep (s : State) (w : Nat) : Option State :=
  match s.workers w with
  | .waiting =>
      match s.queue with
      | (target, bytes) :: rest => some { s.setWorker w (.looking target bytes) with queue := rest }
      | [] => none
  | .looking target bytes =>
      if s.conn = none then
        some (s.setWorker w (if target ∈ config.online then .sending target bytes else .waiting))
      else none
  | .sending _ _ => none

/-- A `write` call of worker `w` that puts `count` bytes into its recipient's channel. -/
def State.workerWrite (s : State) (w count : Nat) : Option State :=
  match s.workers w with
  | .sending target rest =>
      if 0 < count ∧ count ≤ rest ∧ s.fill target + count ≤ config.capacity then
        some ((s.put target count).setWorker w
          (if count < rest then .sending target (rest - count) else .waiting))
      else none
  | _ => none

end Steps

/-- One event of a schedule. -/
inductive Event where
  /-- The client of `session` sends `/whisper` to `target`: a frame of `frame` bytes. -/
  | whisper (session target frame : Nat)
  /-- The client of `session` sends `/broadcast`: a frame of `frame` bytes. -/
  | broadcast (session frame : Nat)
  /-- The client of `session` has sent a file for `target`: a header of `header` bytes
  and `size` bytes of payload. -/
  | sendfile (session target header size : Nat)
  /-- `session`'s handler reads `count` bytes of its channel and forwards them. -/
  | drain (session count : Nat)
  /-- A step of `thread` that moves no bytes. -/
  | step (thread : Thread)
  /-- A `write` of `thread` that puts `count` bytes into a channel. -/
  | write (thread : Thread) (count : Nat)
  deriving DecidableEq, Repr

/-- The thread that moves at an event. -/
def Event.actor : Event → Thread
  | .whisper session _ _ | .broadcast session _ | .sendfile session _ _ _ | .drain session _ =>
      .handler session
  | .step thread | .write thread _ => thread

/-- The state after one event, when its thread can move. -/
def State.apply (config : Config) (s : State) : Event → Option State
  | .whisper i target frame =>
      if 0 < frame ∧ frame < bufSize then s.command i (.finding target frame) else none
  | .broadcast i frame =>
      if i ∈ config.members ∧ 0 < frame ∧ frame < bufSize then
        s.command i (.broadcasting frame)
      else none
  | .sendfile i target header size =>
      if 0 < header ∧ header < bufSize ∧ 0 < size ∧ size ≤ maxFileSize then
        s.command i (.enqueuing target (header + size))
      else none
  | .drain i count =>
      if s.handlers i = .idle ∧ 0 < count ∧ count ≤ s.fill i ∧ count < bufSize then
        some (s.take i count)
      else none
  | .step (.handler i) => s.handlerStep config i
  | .step (.worker w) => s.workerStep config w
  | .write (.handler i) count => s.handlerWrite config i count
  | .write (.worker w) count => s.workerWrite config w count

/-- The schedule `events` takes `s` to `s'`. -/
inductive Run (config : Config) (s : State) : List Event → State → Prop
  | nil : Run config s [] s
  | snoc {events : List Event} {s' s'' : State} (event : Event) :
      Run config s events s' → s'.apply config event = some s'' →
        Run config s (events ++ [event]) s''


section Frame

variable {s : State} {i w session count : Nat} {pc : HandlerPc} {wpc : WorkerPc}

@[simp]
theorem setHandler_handlers :
    (s.setHandler i pc).handlers = Function.update s.handlers i pc := rfl

@[simp]
theorem setHandler_workers : (s.setHandler i pc).workers = s.workers := rfl

@[simp]
theorem setHandler_conn : (s.setHandler i pc).conn = s.conn := rfl

@[simp]
theorem setHandler_roomLock : (s.setHandler i pc).roomLock = s.roomLock := rfl

@[simp]
theorem setHandler_queue : (s.setHandler i pc).queue = s.queue := rfl

@[simp]
theorem setHandler_fill : (s.setHandler i pc).fill = s.fill := rfl

@[simp]
theorem setWorker_handlers : (s.setWorker w wpc).handlers = s.handlers := rfl

@[simp]
theorem setWorker_workers : (s.setWorker w wpc).workers = Function.update s.workers w wpc :=
  rfl

@[simp]
theorem setWorker_conn : (s.setWorker w wpc).conn = s.conn := rfl

@[simp]
theorem setWorker_roomLock : (s.setWorker w wpc).roomLock = s.roomLock := rfl

@[simp]
theorem setWorker_fill : (s.setWorker w wpc).fill = s.fill := rfl

@[simp]
theorem put_handlers : (s.put session count).handlers = s.handlers := rfl

@[simp]
theorem put_workers : (s.put session count).workers = s.workers := rfl

@[simp]
theorem put_conn : (s.put session count).conn = s.conn := rfl

@[simp]
theorem put_roomLock : (s.put session count).roomLock = s.roomLock := rfl

@[simp]
theorem put_fill :
    (s.put session count).fill = Function.update s.fill session (s.fill session + count) := rfl

@[simp]
theorem take_handlers : (s.take session count).handlers = s.handlers := rfl

@[simp]
theorem take_workers : (s.take session count).workers = s.workers := rfl

@[simp]
theorem take_conn : (s.take session count).conn = s.conn := rfl

@[simp]
theorem take_roomLock : (s.take session count).roomLock = s.roomLock := rfl

@[simp]
theorem take_fill :
    (s.take session count).fill = Function.update s.fill session (s.fill session - count) := rfl

end Frame

/-! ## Who waits for whom -/

/--
Thread `t` is blocked waiting for what only `u` can give it: a mutex `u`
holds, or room in the channel of session `u`, which only `u`'s handler reads.
-/
def State.WaitsOn (config : Config) (s : State) : Thread → Thread → Prop
  | .handler i, u =>
      match s.handlers i with
      | .finding _ _ | .notifying _ _ => s.conn = some u
      | .broadcasting _ => s.roomLock = some u
      | .whispering target _ => s.fill target = config.capacity ∧ u = .handler target
      | .roomWriting slot _ _ =>
          match config.members[slot]? with
          | some member => s.fill member = config.capacity ∧ u = .handler member
          | none => False
      | .idle | .enqueuing _ _ => False
  | .worker w, u =>
      match s.workers w with
      | .looking _ _ => s.conn = some u
      | .sending target _ => s.fill target = config.capacity ∧ u = .handler target
      | .waiting => False

/--
A deadlock: a non-empty group of threads, each waiting for one of the group.
Waits for the upload queue are not counted, so every such group is also one
in which each thread waits for what only the group can release.
-/
def State.Deadlocked (config : Config) (s : State) (group : List Thread) : Prop :=
  group ≠ [] ∧ ∀ t ∈ group, ∃ u ∈ group, s.WaitsOn config t u

theorem not_idle_of_waitsOn {config : Config} {s : State} {i : Nat} {u : Thread}
    (waits : s.WaitsOn config (.handler i) u) : s.handlers i ≠ .idle := by
  intro idle
  simp only [State.WaitsOn, idle] at waits

/-- A `write` into a full channel is not enabled. -/
theorem write_blocked {α : Type} {fill count rest capacity : Nat} (written : α)
    (full : fill = capacity) :
    (if 0 < count ∧ count ≤ rest ∧ fill + count ≤ capacity then some written else none) = none :=
  if_neg fun ⟨positive, _, fits⟩ => by omega

/-- A thread waiting for another cannot move. -/
theorem apply_eq_none_of_waitsOn {config : Config} {s : State} {u : Thread} (e : Event)
    (waits : s.WaitsOn config e.actor u) : s.apply config e = none := by
  cases e with
  | step thread =>
      cases thread with
      | handler i =>
          simp only [Event.actor, State.WaitsOn] at waits
          simp only [State.apply, State.handlerStep]
          split <;> simp_all
      | worker w =>
          simp only [Event.actor, State.WaitsOn] at waits
          simp only [State.apply, State.workerStep]
          split <;> simp_all
  | write thread count =>
      cases thread with
      | handler i =>
          simp only [Event.actor, State.WaitsOn] at waits
          simp only [State.apply, State.handlerWrite]
          split
          next placed =>
            simp only [placed] at waits
            exact write_blocked _ waits.1
          next placed =>
            simp only [placed] at waits
            split
            next found =>
              simp only [found] at waits
              exact write_blocked _ waits.1
            next => rfl
          next => rfl
      | worker w =>
          simp only [Event.actor, State.WaitsOn] at waits
          simp only [State.apply, State.workerWrite]
          split
          next placed =>
            simp only [placed] at waits
            exact write_blocked _ waits.1
          next => rfl
  | drain i count => exact if_neg fun ⟨idle, _⟩ => not_idle_of_waitsOn waits idle
  | whisper i | broadcast i | sendfile i =>
      simp only [State.apply, State.command, if_neg (not_idle_of_waitsOn waits)]
      split <;> rfl

/-! ## What a step leaves alone -/

/--
The locks handler `i` holds by its place: `conn_mutex` in a whisper's
`write`, the room's mutex in `room_broadcast`'s loop.
-/
def State.HoldsOwn (s : State) (i : Nat) : Prop :=
  (∀ target rest, s.handlers i = .whispering target rest → s.conn = some (.handler i)) ∧
    ∀ slot frame rest, s.handlers i = .roomWriting slot frame rest →
      s.roomLock = some (.handler i)

/-- Every handler holds the locks of its place. -/
def State.LocksHeld (s : State) : Prop :=
  ∀ i, s.HoldsOwn i

/--
What a step of `actor` leaves alone: the other threads' places, the locks
the others hold, and the full channels of the other sessions.
-/
structure ChangedBy (config : Config) (s s' : State) (actor : Thread) : Prop where
  handlers : ∀ i, .handler i ≠ actor → s'.handlers i = s.handlers i
  workers : ∀ w, .worker w ≠ actor → s'.workers w = s.workers w
  conn : ∀ u, s.conn = some u → u ≠ actor → s'.conn = some u
  roomLock : ∀ u, s.roomLock = some u → u ≠ actor → s'.roomLock = some u
  full : ∀ session, s.fill session = config.capacity → .handler session ≠ actor →
    s'.fill session = config.capacity

section ChangedBy

variable {config : Config} {s s' s'' : State} {a : Thread} {i w c count : Nat}

theorem ChangedBy.trans (first : ChangedBy config s s' a) (second : ChangedBy config s' s'' a) :
    ChangedBy config s s'' a :=
  ⟨fun i other => (second.handlers i other).trans (first.handlers i other),
    fun w other => (second.workers w other).trans (first.workers w other),
    fun u held other => second.conn u (first.conn u held other) other,
    fun u held other => second.roomLock u (first.roomLock u held other) other,
    fun c full other => second.full c (first.full c full other) other⟩

theorem changedBy_setHandler (pc : HandlerPc) :
    ChangedBy config s (s.setHandler i pc) (.handler i) :=
  ⟨fun _ other => Function.update_noteq (fun same => other (congrArg _ same)) _ _,
    fun _ _ => rfl, fun _ held _ => held, fun _ held _ => held, fun _ full _ => full⟩

theorem changedBy_setWorker (pc : WorkerPc) : ChangedBy config s (s.setWorker w pc) (.worker w) :=
  ⟨fun _ _ => rfl, fun _ other => Function.update_noteq (fun same => other (congrArg _ same)) _ _,
    fun _ held _ => held, fun _ held _ => held, fun _ full _ => full⟩

/-- A `write` that fits changes no full channel. -/
theorem changedBy_put (room : s.fill c + count ≤ config.capacity) :
    ChangedBy config s (s.put c count) a := by
  refine ⟨fun _ _ => rfl, fun _ _ => rfl, fun _ held _ => held, fun _ held _ => held, ?_⟩
  intro session full _
  rcases eq_or_ne session c with rfl | other
  · simp only [put_fill, Function.update_same]
    omega
  · simpa [Function.update_noteq other] using full

/-- Only a channel's own handler reads it. -/
theorem changedBy_take : ChangedBy config s (s.take c count) (.handler c) :=
  ⟨fun _ _ => rfl, fun _ _ => rfl, fun _ held _ => held, fun _ held _ => held,
    fun _ full other => by
      simpa [Function.update_noteq (fun same => other (congrArg _ same))] using full⟩

theorem changedBy_queue (queue : List (Nat × Nat)) :
    ChangedBy config s { s with queue := queue } a :=
  ⟨fun _ _ => rfl, fun _ _ => rfl, fun _ held _ => held, fun _ held _ => held,
    fun _ full _ => full⟩

theorem changedBy_lockConn (free : s.conn = none) :
    ChangedBy config s { s with conn := some a } a :=
  ⟨fun _ _ => rfl, fun _ _ => rfl, fun _ held _ => absurd (free ▸ held) (by simp),
    fun _ held _ => held, fun _ full _ => full⟩

theorem changedBy_unlockConn (owned : s.conn = some a) :
    ChangedBy config s { s with conn := none } a :=
  ⟨fun _ _ => rfl, fun _ _ => rfl,
    fun _ held other => absurd (Option.some.inj (held.symm.trans owned)) other,
    fun _ held _ => held, fun _ full _ => full⟩

theorem changedBy_lockRoom (free : s.roomLock = none) :
    ChangedBy config s { s with roomLock := some a } a :=
  ⟨fun _ _ => rfl, fun _ _ => rfl, fun _ held _ => held,
    fun _ held _ => absurd (free ▸ held) (by simp), fun _ full _ => full⟩

theorem changedBy_unlockRoom (owned : s.roomLock = some a) :
    ChangedBy config s { s with roomLock := none } a :=
  ⟨fun _ _ => rfl, fun _ _ => rfl, fun _ held _ => held,
    fun _ held other => absurd (Option.some.inj (held.symm.trans owned)) other,
    fun _ full _ => full⟩

end ChangedBy

section HoldsOwn

variable {s : State} {i : Nat}

theorem holdsOwn_of_idle (idle : s.handlers i = .idle) : s.HoldsOwn i :=
  ⟨fun _ _ placed => (nomatch idle.symm.trans placed),
    fun _ _ _ placed => (nomatch idle.symm.trans placed)⟩

/-- A handler keeping the locks it held, at a place that needs no other lock. -/
theorem holdsOwn_setHandler {pc : HandlerPc}
    (whisper : ∀ target rest, pc = .whispering target rest → s.conn = some (.handler i))
    (room : ∀ slot frame rest, pc = .roomWriting slot frame rest →
      s.roomLock = some (.handler i)) :
    (s.setHandler i pc).HoldsOwn i :=
  ⟨fun target rest placed => whisper target rest (by simpa using placed),
    fun slot frame rest placed => room slot frame rest (by simpa using placed)⟩

theorem holdsOwn_lockConn (target rest : Nat) :
    { s.setHandler i (.whispering target rest) with conn := some (.handler i) }.HoldsOwn i :=
  ⟨fun _ _ _ => rfl, fun _ _ _ placed => by simp at placed⟩

theorem holdsOwn_lockRoom (slot frame rest : Nat) :
    { s.setHandler i (.roomWriting slot frame rest) with
      roomLock := some (.handler i) }.HoldsOwn i :=
  ⟨fun _ _ placed => by simp at placed, fun _ _ _ _ => rfl⟩

end HoldsOwn

section Spec

variable {config : Config} {s s' : State} {i w count : Nat}

/-- A command reaching an idle handler. -/
theorem command_spec {pc : HandlerPc} (stepped : s.command i pc = some s')
    (free : ∀ target rest slot frame,
      pc ≠ .whispering target rest ∧ pc ≠ .roomWriting slot frame rest) :
    ChangedBy config s s' (.handler i) ∧ s'.HoldsOwn i := by
  simp only [State.command] at stepped
  split_ifs at stepped
  cases stepped
  exact ⟨changedBy_setHandler _, holdsOwn_setHandler
    (fun _ _ placed => absurd placed (free _ _ 0 0).1)
    (fun _ _ _ placed => absurd placed (free 0 _ _ _).2)⟩

theorem handlerStep_spec (stepped : s.handlerStep config i = some s') :
    ChangedBy config s s' (.handler i) ∧ s'.HoldsOwn i := by
  simp only [State.handlerStep] at stepped
  split at stepped
  next =>
    split_ifs at stepped <;> cases stepped <;>
      exact ⟨changedBy_setHandler _, holdsOwn_setHandler nofun nofun⟩
  next =>
    split_ifs at stepped with free
    · cases stepped
      exact ⟨(changedBy_setHandler _).trans (changedBy_lockConn free), holdsOwn_lockConn _ _⟩
    · cases stepped
      exact ⟨changedBy_setHandler _, holdsOwn_of_idle (Function.update_same _ _ _)⟩
  next =>
    split_ifs at stepped with free
    · cases stepped
      exact ⟨changedBy_setHandler _, holdsOwn_of_idle (Function.update_same _ _ _)⟩
    · cases stepped
      exact ⟨(changedBy_setHandler _).trans (changedBy_lockRoom free), holdsOwn_lockRoom _ _ _⟩
  next =>
    split_ifs at stepped
    cases stepped
    exact ⟨(changedBy_setHandler _).trans (changedBy_queue _),
      holdsOwn_of_idle (Function.update_same _ _ _)⟩
  all_goals cases stepped

/-- A handler's `write`; the last one of a whisper or a broadcast releases the lock it held. -/
theorem handlerWrite_spec (held : s.LocksHeld) (stepped : s.handlerWrite config i count = some s') :
    ChangedBy config s s' (.handler i) ∧ s'.HoldsOwn i := by
  simp only [State.handlerWrite] at stepped
  split at stepped
  next whispering =>
    have owned := (held i).1 _ _ whispering
    split_ifs at stepped with fits
    · cases stepped
      exact ⟨(changedBy_put fits.2.2).trans (changedBy_setHandler _),
        holdsOwn_setHandler (fun _ _ _ => owned) nofun⟩
    · cases stepped
      exact ⟨((changedBy_put fits.2.2).trans (changedBy_setHandler _)).trans
        (changedBy_unlockConn owned), holdsOwn_of_idle (Function.update_same _ _ _)⟩
  next writing =>
    have owned := (held i).2 _ _ _ writing
    split at stepped
    next =>
      split_ifs at stepped with fits <;> cases stepped
      iterate 2 exact ⟨(changedBy_put fits.2.2).trans (changedBy_setHandler _),
        holdsOwn_setHandler nofun fun _ _ _ _ => owned⟩
      exact ⟨((changedBy_put fits.2.2).trans (changedBy_setHandler _)).trans
        (changedBy_unlockRoom owned), holdsOwn_of_idle (Function.update_same _ _ _)⟩
    next => cases stepped
  next => cases stepped

theorem workerStep_spec (stepped : s.workerStep config w = some s') :
    ChangedBy config s s' (.worker w) := by
  simp only [State.workerStep] at stepped
  split at stepped
  next =>
    split at stepped
    next =>
      cases stepped
      exact (changedBy_setWorker _).trans (changedBy_queue _)
    next => cases stepped
  next => split_ifs at stepped <;> cases stepped <;> exact changedBy_setWorker _
  next => cases stepped

theorem workerWrite_spec (stepped : s.workerWrite config w count = some s') :
    ChangedBy config s s' (.worker w) := by
  simp only [State.workerWrite] at stepped
  split at stepped
  next =>
    split_ifs at stepped with fits <;> cases stepped <;>
      exact (changedBy_put fits.2.2).trans (changedBy_setWorker _)
  next => cases stepped

end Spec

/--
One step: what the actor leaves alone, and that a handler that moved holds
the locks of its new place.
-/
theorem apply_spec {config : Config} {s s' : State} {e : Event} (held : s.LocksHeld)
    (stepped : s.apply config e = some s') :
    ChangedBy config s s' e.actor ∧ ∀ i, e.actor = .handler i → s'.HoldsOwn i := by
  have own {i : Nat} (spec : ChangedBy config s s' (.handler i) ∧ s'.HoldsOwn i) :
      ChangedBy config s s' (.handler i) ∧
        ∀ j, Thread.handler i = .handler j → s'.HoldsOwn j :=
    ⟨spec.1, fun _ same => by cases same; exact spec.2⟩
  cases e with
  | whisper i target frame | broadcast i frame | sendfile i target header size =>
      simp only [State.apply] at stepped
      split_ifs at stepped
      exact own (command_spec stepped fun _ _ _ _ => ⟨nofun, nofun⟩)
  | drain i count =>
      simp only [State.apply] at stepped
      split_ifs at stepped
      cases stepped
      exact own ⟨changedBy_take, held i⟩
  | step thread =>
      cases thread with
      | handler i => exact own (handlerStep_spec stepped)
      | worker w => exact ⟨workerStep_spec stepped, nofun⟩
  | write thread count =>
      cases thread with
      | handler i => exact own (handlerWrite_spec held stepped)
      | worker w => exact ⟨workerWrite_spec stepped, nofun⟩

/-- Every step keeps each handler holding the locks of its place. -/
theorem State.LocksHeld.apply {config : Config} {s s' : State} {e : Event} (held : s.LocksHeld)
    (stepped : s.apply config e = some s') : s'.LocksHeld := by
  obtain ⟨frame, own⟩ := apply_spec held stepped
  intro i
  by_cases moved : Thread.handler i = e.actor
  · exact own i moved.symm
  · have same := frame.handlers i moved
    exact ⟨fun _ _ placed => frame.conn _ ((held i).1 _ _ (same.symm.trans placed)) moved,
      fun _ _ _ placed => frame.roomLock _ ((held i).2 _ _ _ (same.symm.trans placed)) moved⟩

theorem locksHeld_initial : State.initial.LocksHeld :=
  fun _ => ⟨fun _ _ => nofun, fun _ _ _ => nofun⟩

/-- In every reachable state each handler holds the locks of its place. -/
theorem locksHeld_of_run {config : Config} {events : List Event} {s : State}
    (run : Run config State.initial events s) : s.LocksHeld := by
  induction run with
  | nil => exact locksHeld_initial
  | snoc _ _ stepped held => exact held.apply stepped

/-- A wait between two threads that do not move survives the step. -/
theorem ChangedBy.waitsOn {config : Config} {s s' : State} {a t u : Thread}
    (frame : ChangedBy config s s' a) (waits : s.WaitsOn config t u) (still : t ≠ a)
    (other : u ≠ a) :
    s'.WaitsOn config t u := by
  cases t with
  | handler i =>
      simp only [State.WaitsOn, frame.handlers i still] at waits ⊢
      cases placed : s.handlers i <;> simp only [placed] at waits ⊢
      case finding | notifying => exact frame.conn u waits other
      case broadcasting => exact frame.roomLock u waits other
      case whispering =>
        obtain ⟨full, rfl⟩ := waits
        exact ⟨frame.full _ full other, rfl⟩
      case roomWriting =>
        split at waits
        next member _ =>
          obtain ⟨full, rfl⟩ := waits
          exact ⟨frame.full _ full other, rfl⟩
        next => exact waits.elim
  | worker w =>
      simp only [State.WaitsOn, frame.workers w still] at waits ⊢
      cases placed : s.workers w <;> simp only [placed] at waits ⊢
      case looking => exact frame.conn u waits other
      case sending =>
        obtain ⟨full, rfl⟩ := waits
        exact ⟨frame.full _ full other, rfl⟩

/-- No event of a deadlocked group can happen, and every other event keeps the group deadlocked. -/
theorem State.Deadlocked.apply {config : Config} {s s' : State} {group : List Thread} {e : Event}
    (held : s.LocksHeld) (dead : s.Deadlocked config group) (stepped : s.apply config e = some s') :
    e.actor ∉ group ∧ s'.Deadlocked config group := by
  have outside : e.actor ∉ group := fun inside => by
    obtain ⟨u, -, waits⟩ := dead.2 _ inside
    rw [apply_eq_none_of_waitsOn e waits] at stepped
    cases stepped
  refine ⟨outside, dead.1, fun t member => ?_⟩
  obtain ⟨u, belongs, waits⟩ := dead.2 t member
  exact ⟨u, belongs, (apply_spec held stepped).1.waitsOn waits
    (ne_of_mem_of_not_mem member outside) (ne_of_mem_of_not_mem belongs outside)⟩

/--
Along every run from a deadlock, no thread of the group moves, and the group
stays deadlocked.
-/
theorem State.Deadlocked.run {config : Config} {s s' : State} {group : List Thread}
    {events : List Event} (held : s.LocksHeld) (dead : s.Deadlocked config group)
    (run : Run config s events s') :
    (∀ e ∈ events, e.actor ∉ group) ∧ s'.Deadlocked config group ∧ s'.LocksHeld := by
  induction run with
  | nil => exact ⟨nofun, dead, held⟩
  | snoc event _ stepped ih =>
      obtain ⟨quiet, dead', held'⟩ := ih
      obtain ⟨outside, dead''⟩ := dead'.apply held' stepped
      refine ⟨fun e member => ?_, dead'', held'.apply stepped⟩
      rcases List.mem_append.mp member with earlier | last
      · exact quiet e earlier
      · rw [List.mem_singleton.mp last]
        exact outside

/-! ## A whisper into a full channel -/

/-- Sessions `a` (0) and `b` (1) online, the room unused, channels of `capacity` bytes. -/
def twoSessions (capacity : Nat) : Config :=
  ⟨capacity, [0, 1], []⟩

/--
`b` sends `a` a file of `capacity` bytes, and a worker writes its 16-byte
header and the first `capacity` bytes into `a`'s channel; `b` then whispers
`hi` to `a`, and `a`, which has not read its channel, whispers `hi` to `b`.
-/
def fullChannelWhispers (capacity : Nat) : List Event :=
  [.sendfile 1 0 16 capacity, .step (.handler 1), .step (.worker 0), .step (.worker 0),
    .write (.worker 0) capacity, .whisper 1 0 7, .step (.handler 1), .step (.handler 1),
    .whisper 0 1 7]

/-- `a`, `b`, and the worker delivering `b`'s file to `a`. -/
def stuckGroup : List Thread :=
  [.handler 0, .handler 1, .worker 0]

/-- A worker's `write` that leaves part of its upload unwritten. -/
theorem apply_worker_write_unfinished {config : Config} {s : State} {w target rest count : Nat}
    (sending : s.workers w = .sending target rest)
    (fits : 0 < count ∧ count ≤ rest ∧ s.fill target + count ≤ config.capacity)
    (more : count < rest) :
    s.apply config (.write (.worker w) count) =
      some ((s.put target count).setWorker w (.sending target (rest - count))) := by
  simp only [State.apply, State.workerWrite, sending, if_pos fits, if_pos more]

/-- A reachable deadlock lasts: along every later run no thread of the group moves. -/
theorem deadlocked_forever {config : Config} {events : List Event} {s : State} {group : List Thread}
    (reached : Run config State.initial events s) (dead : s.Deadlocked config group) :
    ∀ later s', Run config s later s' →
      (∀ e ∈ later, e.actor ∉ group) ∧ s'.Deadlocked config group :=
  fun _ _ run => (dead.run (locksHeld_of_run reached) run).imp_right And.left

/--
For every channel capacity up to the largest upload, `fullChannelWhispers`
reaches a state where `a` waits for `conn_mutex`, which `b` holds while it
waits for room in `a`'s channel, as the worker does; along every run from
there none of the three moves again.
-/
theorem whisper_deadlocks_on_full_channel (capacity : Nat) (positive : 0 < capacity)
    (fits : capacity ≤ maxFileSize) :
    ∃ s, Run (twoSessions capacity) State.initial (fullChannelWhispers capacity) s ∧
      s.Deadlocked (twoSessions capacity) stuckGroup ∧
      ∀ events s', Run (twoSessions capacity) s events s' →
        (∀ e ∈ events, e.actor ∉ stuckGroup) ∧
          s'.Deadlocked (twoSessions capacity) stuckGroup := by
  have run := (Run.nil : Run (twoSessions capacity) State.initial [] State.initial).snoc
    (.sendfile 1 0 16 capacity) (by
      simp only [State.apply]
      rw [if_pos ⟨by decide, by decide, positive, fits⟩]
      rfl)
  replace run := run.snoc (.step (.handler 1)) rfl
  replace run := run.snoc (.step (.worker 0)) rfl
  replace run := run.snoc (.step (.worker 0)) rfl
  replace run := run.snoc (.write (.worker 0) capacity)
    (apply_worker_write_unfinished rfl ⟨positive, by omega, Nat.le_of_eq (Nat.zero_add _)⟩
      (by omega))
  replace run := run.snoc (.whisper 1 0 7) rfl
  replace run := run.snoc (.step (.handler 1)) rfl
  replace run := run.snoc (.step (.handler 1)) rfl
  replace run := run.snoc (.whisper 0 1 7) rfl
  refine ⟨_, run, ?dead, deadlocked_forever run ?dead⟩
  refine ⟨List.cons_ne_nil _ _, fun t member => ?_⟩
  simp only [stuckGroup, List.mem_cons, List.mem_singleton, List.not_mem_nil, or_false] at member
  rcases member with rfl | rfl | rfl
  · exact ⟨.handler 1, by simp [stuckGroup], by simp [State.WaitsOn, State.initial]⟩
  · exact ⟨.handler 0, by simp [stuckGroup],
      by simp [State.WaitsOn, State.initial, twoSessions]⟩
  · exact ⟨.handler 0, by simp [stuckGroup],
      by simp [State.WaitsOn, State.initial, twoSessions]⟩

theorem whisper_deadlocks_on_64KiB_channels :
    0 < 65536 ∧ 65536 ≤ maxFileSize ∧
      ∃ s, Run (twoSessions 65536) State.initial (fullChannelWhispers 65536) s ∧
        s.Deadlocked (twoSessions 65536) stuckGroup ∧
        ∀ events s', Run (twoSessions 65536) s events s' →
          (∀ e ∈ events, e.actor ∉ stuckGroup) ∧
            s'.Deadlocked (twoSessions 65536) stuckGroup :=
  ⟨by decide, by decide, whisper_deadlocks_on_full_channel 65536 (by decide) (by decide)⟩

end ChatServer.Deadlock
