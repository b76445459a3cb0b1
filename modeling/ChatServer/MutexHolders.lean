import ChatServer.Deadlock

/-!
# A deadlock needs a full channel

`ChatServer.Deadlock` reaches a deadlock in which a whisper's `write` under
`conn_mutex` meets a full channel.  This module shows that every deadlock
of the model waits on a full channel.

Along every run each mutex is held only by a handler in the `write` loop
that took it: `conn_mutex` by a handler writing a whisper in
`broadcast_message_via_notify`, the room's mutex by a handler writing a
broadcast in `room_broadcast`.  A thread in such a loop waits for nothing
but room in a channel.  So in every deadlocked group some session's channel
is full while its reader is in the group: `conn_mutex` and the room's mutex
alone never deadlock, and a group stays stuck only while no one outside it
can drain the channel it waits on.
-/

namespace ChatServer.MutexHolders

open ChatServer.Basic ChatServer.Deadlock

/-- Handler `i` is in the `write` loop of a whisper or of a broadcast. -/
def Writing (s : State) (i : Nat) : Prop :=
  (∃ target rest, s.handlers i = .whispering target rest) ∨
    ∃ slot frame rest, s.handlers i = .roomWriting slot frame rest

/-- Each mutex is held only by a handler in the `write` loop that took it. -/
structure HeldByWriters (s : State) : Prop where
  conn : ∀ u, s.conn = some u →
    ∃ i target rest, u = .handler i ∧ s.handlers i = .whispering target rest
  room : ∀ u, s.roomLock = some u →
    ∃ i slot frame rest, u = .handler i ∧ s.handlers i = .roomWriting slot frame rest

/-! ## Only writers hold the mutexes -/

section Holders

variable {s : State} {i : Nat}

/-- A handler that moves keeps the invariant if it keeps the place of each mutex it holds. -/
theorem HeldByWriters.setHandler (held : HeldByWriters s) {pc : HandlerPc}
    (keepsConn : s.conn = some (.handler i) → ∃ target rest, pc = .whispering target rest)
    (keepsRoom : s.roomLock = some (.handler i) →
      ∃ slot frame rest, pc = .roomWriting slot frame rest) :
    HeldByWriters (s.setHandler i pc) := by
  constructor
  · intro u locked
    obtain ⟨j, target, rest, rfl, placed⟩ := held.conn u locked
    rcases eq_or_ne j i with rfl | other
    · obtain ⟨target', rest', rfl⟩ := keepsConn locked
      exact ⟨j, target', rest', rfl, Function.update_same _ _ _⟩
    · exact ⟨j, target, rest, rfl, (Function.update_noteq other _ _).trans placed⟩
  · intro u locked
    obtain ⟨j, slot, frame, rest, rfl, placed⟩ := held.room u locked
    rcases eq_or_ne j i with rfl | other
    · obtain ⟨slot', frame', rest', rfl⟩ := keepsRoom locked
      exact ⟨j, slot', frame', rest', rfl, Function.update_same _ _ _⟩
    · exact ⟨j, slot, frame, rest, rfl, (Function.update_noteq other _ _).trans placed⟩

/-- A handler out of the `write` loops holds no mutex, so it may move anywhere. -/
theorem HeldByWriters.setHandler_of_not_writing (held : HeldByWriters s) (idle : ¬Writing s i)
    (pc : HandlerPc) : HeldByWriters (s.setHandler i pc) :=
  held.setHandler
    (fun locked => by
      obtain ⟨j, target, rest, same, placed⟩ := held.conn _ locked
      cases same
      exact absurd (.inl ⟨target, rest, placed⟩) idle)
    (fun locked => by
      obtain ⟨j, slot, frame, rest, same, placed⟩ := held.room _ locked
      cases same
      exact absurd (.inr ⟨slot, frame, rest, placed⟩) idle)

theorem HeldByWriters.withConn (held : HeldByWriters s) {c : Option Thread}
    (holder : ∀ u, c = some u →
      ∃ i target rest, u = .handler i ∧ s.handlers i = .whispering target rest) :
    HeldByWriters { s with conn := c } :=
  ⟨holder, held.room⟩

theorem HeldByWriters.withRoom (held : HeldByWriters s) {c : Option Thread}
    (holder : ∀ u, c = some u →
      ∃ i slot frame rest, u = .handler i ∧ s.handlers i = .roomWriting slot frame rest) :
    HeldByWriters { s with roomLock := c } :=
  ⟨held.conn, holder⟩

theorem HeldByWriters.put (held : HeldByWriters s) (session count : Nat) :
    HeldByWriters (s.put session count) :=
  ⟨held.conn, held.room⟩

theorem HeldByWriters.take (held : HeldByWriters s) (session count : Nat) :
    HeldByWriters (s.take session count) :=
  ⟨held.conn, held.room⟩

theorem HeldByWriters.setWorker (held : HeldByWriters s) (w : Nat) (pc : WorkerPc) :
    HeldByWriters (s.setWorker w pc) :=
  ⟨held.conn, held.room⟩

theorem HeldByWriters.withQueue (held : HeldByWriters s) (queue : List (Nat × Nat)) :
    HeldByWriters { s with queue := queue } :=
  ⟨held.conn, held.room⟩

/-- A handler at a place outside the `write` loops is not writing. -/
theorem not_writing_of_placed {pc : HandlerPc} (placed : s.handlers i = pc)
    (free : ∀ target rest slot frame,
      pc ≠ .whispering target rest ∧ pc ≠ .roomWriting slot frame rest) :
    ¬Writing s i := by
  rintro (⟨target, rest, writing⟩ | ⟨slot, frame, rest, writing⟩)
  · exact (free target rest 0 0).1 (placed.symm.trans writing)
  · exact (free 0 rest slot frame).2 (placed.symm.trans writing)

end Holders

section Steps

variable {config : Config} {s s' : State} {i w count : Nat}

theorem HeldByWriters.handlerStep (held : HeldByWriters s)
    (stepped : s.handlerStep config i = some s') : HeldByWriters s' := by
  simp only [State.handlerStep] at stepped
  split at stepped
  next finding =>
    have idle := not_writing_of_placed finding fun _ _ _ _ => ⟨nofun, nofun⟩
    split_ifs at stepped <;> cases stepped <;> exact held.setHandler_of_not_writing idle _
  next notifying =>
    have idle := not_writing_of_placed notifying fun _ _ _ _ => ⟨nofun, nofun⟩
    split_ifs at stepped <;> cases stepped
    · exact (held.setHandler_of_not_writing idle _).withConn fun _ locked =>
        ⟨i, _, _, (Option.some.inj locked).symm, Function.update_same _ _ _⟩
    · exact held.setHandler_of_not_writing idle _
  next broadcasting =>
    have idle := not_writing_of_placed broadcasting fun _ _ _ _ => ⟨nofun, nofun⟩
    split_ifs at stepped <;> cases stepped
    · exact held.setHandler_of_not_writing idle _
    · exact (held.setHandler_of_not_writing idle _).withRoom fun _ locked =>
        ⟨i, _, _, _, (Option.some.inj locked).symm, Function.update_same _ _ _⟩
  next enqueuing =>
    have idle := not_writing_of_placed enqueuing fun _ _ _ _ => ⟨nofun, nofun⟩
    split_ifs at stepped
    cases stepped
    exact (held.setHandler_of_not_writing idle _).withQueue _
  all_goals cases stepped

theorem HeldByWriters.handlerWrite (held : HeldByWriters s)
    (stepped : s.handlerWrite config i count = some s') : HeldByWriters s' := by
  simp only [State.handlerWrite] at stepped
  split at stepped
  next target rest whispering =>
    have noRoom : s.roomLock ≠ some (.handler i) := fun locked => by
      obtain ⟨j, slot, frame, rest, same, placed⟩ := held.room _ locked
      cases same
      rw [whispering] at placed
      cases placed
    split_ifs at stepped <;> cases stepped
    · exact (held.put _ _).setHandler (fun _ => ⟨_, _, rfl⟩) (absurd · noRoom)
    · -- the last bytes: `conn_mutex` is released as the handler leaves the loop
      have released : HeldByWriters { s.put target count with conn := none } :=
        (held.put _ _).withConn nofun
      exact released.setHandler nofun (absurd · noRoom)
  next slot frame rest writing =>
    have noConn : s.conn ≠ some (.handler i) := fun locked => by
      obtain ⟨j, target, rest, same, placed⟩ := held.conn _ locked
      cases same
      rw [writing] at placed
      cases placed
    split at stepped
    next member _ =>
      split_ifs at stepped <;> cases stepped
      · exact (held.put _ _).setHandler (absurd · noConn) fun _ => ⟨_, _, _, rfl⟩
      · exact (held.put _ _).setHandler (absurd · noConn) fun _ => ⟨_, _, _, rfl⟩
      · -- the last member: the room's mutex is released as the handler leaves the loop
        have released : HeldByWriters { s.put member count with roomLock := none } :=
          (held.put _ _).withRoom nofun
        exact released.setHandler (absurd · noConn) nofun
    next => cases stepped
  next => cases stepped

theorem HeldByWriters.workerStep (held : HeldByWriters s)
    (stepped : s.workerStep config w = some s') : HeldByWriters s' := by
  simp only [State.workerStep] at stepped
  split at stepped
  next =>
    split at stepped
    next =>
      cases stepped
      exact (held.setWorker _ _).withQueue _
    next => cases stepped
  next => split_ifs at stepped <;> cases stepped <;> exact held.setWorker _ _
  next => cases stepped

theorem HeldByWriters.workerWrite (held : HeldByWriters s)
    (stepped : s.workerWrite config w count = some s') : HeldByWriters s' := by
  simp only [State.workerWrite] at stepped
  split at stepped
  next => split_ifs at stepped <;> cases stepped <;> exact (held.put _ _).setWorker _ _
  next => cases stepped

theorem HeldByWriters.apply {e : Event} (held : HeldByWriters s)
    (stepped : s.apply config e = some s') : HeldByWriters s' := by
  cases e with
  | whisper i | broadcast i | sendfile i =>
      simp only [State.apply, State.command] at stepped
      split_ifs at stepped with _ idle
      cases stepped
      exact held.setHandler_of_not_writing
        (not_writing_of_placed idle fun _ _ _ _ => ⟨nofun, nofun⟩) _
  | drain i count =>
      simp only [State.apply] at stepped
      split_ifs at stepped
      cases stepped
      exact held.take _ _
  | step thread =>
      cases thread with
      | handler i => exact held.handlerStep stepped
      | worker w => exact held.workerStep stepped
  | write thread count =>
      cases thread with
      | handler i => exact held.handlerWrite stepped
      | worker w => exact held.workerWrite stepped

end Steps

theorem heldByWriters_of_run {config : Config} {events : List Event} {s : State}
    (run : Run config State.initial events s) : HeldByWriters s := by
  induction run with
  | nil => exact ⟨fun _ => nofun, fun _ => nofun⟩
  | snoc _ _ stepped held => exact held.apply stepped

/-! ## Every deadlock waits on a full channel -/

section Waits

variable {config : Config} {s : State}

/-- A handler in a `write` loop waits only for the reader of a full channel. -/
theorem writer_waits {i : Nat} {v : Thread} (writing : Writing s i)
    (waits : s.WaitsOn config (.handler i) v) :
    ∃ session, v = .handler session ∧ s.fill session = config.capacity := by
  rcases writing with ⟨target, rest, placed⟩ | ⟨slot, frame, rest, placed⟩
  · simp only [State.WaitsOn, placed] at waits
    exact ⟨target, waits.2, waits.1⟩
  · simp only [State.WaitsOn, placed] at waits
    split at waits
    next member _ => exact ⟨member, waits.2, waits.1⟩
    next => exact waits.elim

/-- Every wait is for the reader of a full channel, or for a mutex a writer holds. -/
theorem waitsOn_cases (held : HeldByWriters s) {t u : Thread} (waits : s.WaitsOn config t u) :
    (∃ session, u = .handler session ∧ s.fill session = config.capacity) ∨
      ∃ j, u = .handler j ∧ Writing s j := by
  have lockedConn (locked : s.conn = some u) : ∃ j, u = .handler j ∧ Writing s j :=
    have ⟨j, target, rest, holder, placed⟩ := held.conn u locked
    ⟨j, holder, .inl ⟨target, rest, placed⟩⟩
  cases t with
  | handler i =>
      cases placed : s.handlers i <;> simp only [State.WaitsOn, placed] at waits
      case finding | notifying => exact .inr (lockedConn waits)
      case broadcasting =>
        obtain ⟨j, slot, frame, rest, holder, writing⟩ := held.room u waits
        exact .inr ⟨j, holder, .inr ⟨slot, frame, rest, writing⟩⟩
      case whispering target rest =>
        exact .inl (writer_waits (.inl ⟨target, rest, placed⟩)
          (by simpa [State.WaitsOn, placed]))
      case roomWriting slot frame rest =>
        exact .inl (writer_waits (.inr ⟨slot, frame, rest, placed⟩)
          (by simpa [State.WaitsOn, placed]))
  | worker w =>
      cases placed : s.workers w <;> simp only [State.WaitsOn, placed] at waits
      case looking => exact .inr (lockedConn waits)
      case sending target rest => exact .inl ⟨target, waits.2, waits.1⟩

end Waits

/--
Every deadlock the model reaches waits on a full channel: in every reachable
state, a deadlocked group holds the reader of a session's channel that is
full.  `conn_mutex` and the room's mutex alone never deadlock, since only a
thread writing into a channel holds one.
-/
theorem deadlock_needs_full_channel {config : Config} {events : List Event} {s : State}
    (run : Run config State.initial events s) {group : List Thread}
    (dead : s.Deadlocked config group) :
    ∃ session, Thread.handler session ∈ group ∧ s.fill session = config.capacity := by
  obtain ⟨t, member⟩ := List.exists_mem_of_ne_nil _ dead.1
  obtain ⟨u, belongs, waits⟩ := dead.2 t member
  rcases waitsOn_cases (heldByWriters_of_run run) waits with ⟨session, rfl, full⟩ |
    ⟨j, rfl, writing⟩
  · exact ⟨session, belongs, full⟩
  · obtain ⟨v, further, waitsAgain⟩ := dead.2 _ belongs
    obtain ⟨session, rfl, full⟩ := writer_waits writing waitsAgain
    exact ⟨session, further, full⟩

/-- One session online, channels of 7 bytes, the room unused. -/
def oneSession : Config :=
  ⟨7, [0], []⟩

/--
Session 0 whispers a 7-byte frame to itself, which fills its own channel,
then whispers again: its second `write` waits for room that only it could
make.
-/
def selfWhispers : List Event :=
  [.whisper 0 0 7, .step (.handler 0), .step (.handler 0), .write (.handler 0) 7,
    .whisper 0 0 7, .step (.handler 0), .step (.handler 0)]

theorem deadlock_needs_full_channel_of_self_whispers :
    ∃ s, Run oneSession State.initial selfWhispers s ∧
      s.Deadlocked oneSession [.handler 0] ∧
      ∃ session, Thread.handler session ∈ [Thread.handler 0] ∧
        s.fill session = oneSession.capacity := by
  have run := (Run.nil : Run oneSession State.initial [] State.initial).snoc
    (.whisper 0 0 7) rfl
  replace run := run.snoc (.step (.handler 0)) rfl
  replace run := run.snoc (.step (.handler 0)) rfl
  replace run := run.snoc (.write (.handler 0) 7) rfl
  replace run := run.snoc (.whisper 0 0 7) rfl
  replace run := run.snoc (.step (.handler 0)) rfl
  replace run := run.snoc (.step (.handler 0)) rfl
  refine ⟨_, run, ?dead, deadlock_needs_full_channel run ?dead⟩
  refine ⟨List.cons_ne_nil _ _, fun t member => ?_⟩
  rw [List.mem_singleton.mp member]
  exact ⟨.handler 0, List.mem_singleton_self _,
    by simp [State.WaitsOn, State.initial, oneSession]⟩

end ChatServer.MutexHolders
